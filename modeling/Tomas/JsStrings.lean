import Mathlib.Data.List.DropRight
import Mathlib.Data.Nat.Digits.Defs

/-! JavaScript strings, which are sequences of UTF-16 code units, and those of
their operations that the web clients use. -/
namespace Tomas.JsStrings

abbrev JsString := List UInt16

/-- One code unit, or a surrogate pair. -/
def utf16 (char : Char) : JsString :=
  if char.toNat < 0x10000 then [UInt16.ofNat char.toNat]
  else
    [UInt16.ofNat (0xd800 + (char.toNat - 0x10000) / 0x400),
      UInt16.ofNat (0xdc00 + (char.toNat - 0x10000) % 0x400)]

/-- A string literal. -/
def js (text : String) : JsString := text.toList.flatMap utf16

/-- Both arguments are clamped, and exchanged if they are out of order. -/
def substring (s : JsString) (start stop : Int) : JsString :=
  let first := min start.toNat s.length
  let second := min stop.toNat s.length
  (s.take (max first second)).drop (min first second)

def indexOf (s : JsString) (unit : UInt16) : Int :=
  match s.findIdx? (· == unit) with
  | some index => index
  | none => -1

/-- `\s` in a regular expression. -/
def isSpace (unit : UInt16) : Bool :=
  (9 ≤ unit && unit ≤ 13) || (0x2000 ≤ unit && unit ≤ 0x200a) ||
    [0x20, 0xa0, 0x1680, 0x2028, 0x2029, 0x202f, 0x205f, 0x3000, 0xfeff].contains unit

/-- `str.replace(/^\s+|\s+$/g, "")`. -/
def trim (s : JsString) : JsString := (s.dropWhile isSpace).rdropWhile isSpace

def isDigit (unit : UInt16) : Bool := 48 ≤ unit && unit ≤ 57

def digitsValue (digits : JsString) : Nat :=
  digits.foldl (fun value digit => value * 10 + (digit.toNat - 48)) 0

/-- The nearest number of 53 significant bits, half-way the even one. What
overflows to `Infinity` stays as large as it is, past every length and time. -/
def nearest (n : Nat) : Nat :=
  let unit := 2 ^ (n.log2 - 52)
  let up := unit < 2 * (n % unit) || (unit == 2 * (n % unit) && n / unit % 2 == 1)
  (n / unit + if up then 1 else 0) * unit

/-- `parseInt(s, 10)`, with nothing for `NaN`. -/
def parseInt (s : JsString) : Option Int :=
  let s := s.dropWhile isSpace
  let negative := s.head? == some 45
  let digits := (if negative || s.head? == some 43 then s.tail else s).takeWhile isDigit
  if digits = [] then none
  else some (if negative then -(nearest (digitsValue digits)) else nearest (digitsValue digits))

/-- A natural number as a string. -/
def decimal (n : Nat) : JsString :=
  if n = 0 then [48] else ((Nat.digits 10 n).map fun digit => UInt16.ofNat (48 + digit)).reverse

/-- The array index that a property name stands for. -/
def arrayIndex (name : JsString) : Option Nat :=
  let index := digitsValue name
  if decimal index = name ∧ index < 2 ^ 32 - 1 then some index else none

def isHighSurrogate (unit : UInt16) : Bool := 0xd800 ≤ unit && unit ≤ 0xdbff

def isLowSurrogate (unit : UInt16) : Bool := 0xdc00 ≤ unit && unit ≤ 0xdfff

/-- The number of bytes `encodeURIComponent` writes or escapes. It throws on a
surrogate without its pair. -/
def utf8Length : JsString → Option Nat
  | [] => some 0
  | unit :: rest =>
    if isHighSurrogate unit then
      match rest with
      | [] => none
      | low :: rest => if isLowSurrogate low then (utf8Length rest).map (· + 4) else none
    else if isLowSurrogate unit then none
    else (utf8Length rest).map (· + if unit < 0x80 then 1 else if unit < 0x800 then 2 else 3)

/-! ## Rules -/

variable {s front rest : JsString} {unit : UInt16} {n : Nat}

theorem substring_start : substring s 0 n = s.take n := by
  simp only [substring, Int.toNat_zero, Int.toNat_natCast, Nat.zero_min, Nat.zero_max, List.drop_zero]
  rw [← List.take_eq_take_min]

theorem substring_from (inside : n ≤ s.length) {stop : Int} (ends : s.length ≤ stop) :
    substring s n stop = s.drop n := by
  have whole : min stop.toNat s.length = s.length := by omega
  simp only [substring, Int.toNat_natCast, whole, Nat.min_eq_left inside, Nat.max_eq_right inside,
    List.take_length]

theorem indexOf_front (absent : unit ∉ front) :
    indexOf (front ++ unit :: rest) unit = front.length := by
  have other : front.findIdx? (· == unit) = none := by
    rw [List.findIdx?_eq_none_iff]
    intro other member
    simpa using fun same : other = unit => absent (same ▸ member)
  simp [indexOf, List.findIdx?_append, other, List.findIdx?_cons]

theorem trim_eq_self (plain : ∀ unit ∈ s, isSpace unit = false) : trim s = s := by
  have front : s.dropWhile isSpace = s := by
    cases s with
    | nil => rfl
    | cons unit rest => rw [List.dropWhile_cons_of_neg (by simp [plain unit List.mem_cons_self])]
  rw [trim, front, List.rdropWhile_eq_self_iff]
  intro nonempty
  simp [plain _ (List.getLast_mem nonempty)]

/-- What a string is split into is without the separator. -/
theorem mem_splitOn : ∀ line ∈ s.splitOn unit, unit ∉ line ∧ ∀ other ∈ line, other ∈ s := by
  induction s with
  | nil => simp
  | cons first s ih =>
    intro line member
    rw [List.splitOn_cons_eq_if_modifyHead] at member
    split at member
    · rcases List.mem_cons.mp member with rfl | later
      · exact ⟨List.not_mem_nil, by simp⟩
      · exact ⟨(ih line later).1, fun other inside => List.mem_cons_of_mem _ ((ih line later).2 other inside)⟩
    · rename_i other
      cases lines : s.splitOn unit with
      | nil => exact absurd lines (List.splitOn_ne_nil _ _)
      | cons head tail =>
        rw [lines, List.modifyHead_cons] at member
        rcases List.mem_cons.mp member with rfl | later
        · obtain ⟨plain, known⟩ := ih head (by simp [lines])
          have apart : ¬ unit = first := fun same => other (by simp [same])
          refine ⟨by simp [apart, plain], ?_⟩
          intro piece inside
          rcases List.mem_cons.mp inside with rfl | rest
          · exact List.mem_cons_self
          · exact List.mem_cons_of_mem _ (known piece rest)
        · obtain ⟨plain, known⟩ := ih line (by simp [lines, later])
          exact ⟨plain, fun piece inside => List.mem_cons_of_mem _ (known piece inside)⟩

theorem mem_substring {start stop : Int} (member : unit ∈ substring s start stop) : unit ∈ s :=
  List.mem_of_mem_take (List.mem_of_mem_drop member)

theorem mem_trim (member : unit ∈ trim s) : unit ∈ s :=
  (List.dropWhile_sublist _).subset ((List.rdropWhile_prefix _ _).subset member)

/-- The code unit of a decimal digit. -/
private theorem toNat_digit {digit : Nat} (small : digit < 10) :
    (UInt16.ofNat (48 + digit)).toNat = 48 + digit := by
  rw [UInt16.toNat_ofNat']
  omega

theorem isDigit_decimal : ∀ unit ∈ decimal n, isDigit unit = true := by
  intro unit member
  unfold decimal at member
  split at member
  · rw [List.mem_singleton.mp member]
    rfl
  · obtain ⟨digit, inside, rfl⟩ := List.mem_map.mp (List.mem_reverse.mp member)
    have small := Nat.digits_lt_base (by decide : 1 < 10) inside
    simp only [isDigit, Bool.and_eq_true, decide_eq_true_eq, UInt16.le_iff_toNat_le, toNat_digit small]
    exact ⟨Nat.le_add_right .., Nat.add_le_add_left (Nat.le_of_lt_succ small) 48⟩

theorem decimal_ne_nil : decimal n ≠ [] := by
  unfold decimal
  split
  · exact List.cons_ne_nil _ _
  · rename_i positive
    simpa [Nat.digits_ne_nil_iff_ne_zero] using positive

private theorem foldr_digits (digits : List Nat) (small : ∀ digit ∈ digits, digit < 10) :
    (digits.map fun digit => UInt16.ofNat (48 + digit)).foldr
      (fun digit value => value * 10 + (digit.toNat - 48)) 0 = Nat.ofDigits 10 digits := by
  induction digits with
  | nil => rfl
  | cons digit digits ih =>
    have later := ih fun other member => small other (List.mem_cons_of_mem _ member)
    rw [List.map_cons, List.foldr_cons, later, toNat_digit (small digit List.mem_cons_self),
      Nat.ofDigits_cons]
    omega

private theorem digitsValue_decimal : digitsValue (decimal n) = n := by
  unfold decimal
  split
  · rename_i zero
    rw [zero]
    rfl
  · have small : ∀ digit ∈ Nat.digits 10 n, digit < 10 :=
      fun digit inside => Nat.digits_lt_base (by decide) inside
    rw [digitsValue, List.foldl_reverse, foldr_digits _ small, Nat.ofDigits_digits]

theorem decimal_injective {m : Nat} (same : decimal m = decimal n) : m = n := by
  rw [← @digitsValue_decimal m, same, digitsValue_decimal]

theorem nearest_eq_self (exact : n < 2 ^ 53) : nearest n = n := by
  have small : n.log2 - 52 = 0 := by
    by_cases zero : n = 0
    · subst zero
      rfl
    · have := (Nat.log2_lt zero).mpr exact
      omega
  simp [nearest, small, Nat.mod_one]

/-- A digit is no sign and no space. -/
private theorem digit_plain (digit : isDigit unit = true) :
    isSpace unit = false ∧ unit ≠ 43 ∧ unit ≠ 45 := by
  simp only [isDigit, Bool.and_eq_true, decide_eq_true_eq, UInt16.le_iff_toNat_le,
    UInt16.reduceToNat] at digit
  simp only [isSpace, List.contains_cons, List.contains_nil, Bool.or_eq_false_iff, Bool.and_eq_false_iff,
    decide_eq_false_iff_not, beq_eq_false_iff_ne, ne_eq, UInt16.le_iff_toNat_le, ← UInt16.toNat_inj,
    UInt16.reduceToNat, and_true]
  refine ⟨⟨⟨?_, ?_⟩, ?_⟩, ?_, ?_⟩
  · exact Or.inr (by omega)
  · exact Or.inl (by omega)
  · omega
  · omega
  · omega

theorem isSpace_decimal : ∀ unit ∈ decimal n, isSpace unit = false :=
  fun unit member => (digit_plain (isDigit_decimal unit member)).1

/-- A number that JavaScript can tell from its neighbours is read back. -/
theorem parseInt_decimal (exact : n < 2 ^ 53) : parseInt (decimal n) = some (n : Int) := by
  have digits := @isDigit_decimal n
  have spaces := @isSpace_decimal n
  have value := @digitsValue_decimal n
  have some := @decimal_ne_nil n
  revert digits spaces value some
  generalize decimal n = s
  intro digits spaces value some
  cases s with
  | nil => exact absurd rfl some
  | cons unit rest =>
    obtain ⟨space, plus, minus⟩ := digit_plain (digits unit List.mem_cons_self)
    have whole : (unit :: rest).takeWhile isDigit = unit :: rest := by
      rw [List.takeWhile_eq_self_iff]
      exact digits
    simp [parseInt, space, plus, minus, whole, value, nearest_eq_self exact]

theorem length_le_utf8Length (counted : utf8Length s = some n) : s.length ≤ n := by
  induction s using utf8Length.induct generalizing n with
  | case1 => exact Nat.zero_le n
  | case2 unit high => simp [utf8Length, high] at counted
  | case3 unit high low rest isLow ih =>
    simp only [utf8Length, high, isLow, if_true, Option.map_eq_some_iff] at counted
    obtain ⟨counted, more, rfl⟩ := counted
    have shorter := ih more
    simp only [List.length_cons]
    omega
  | case4 unit high low rest notLow => simp [utf8Length, high, notLow] at counted
  | case5 unit rest notHigh low =>
    unfold utf8Length at counted
    simp [notHigh, low] at counted
  | case6 unit rest notHigh notLow ih =>
    unfold utf8Length at counted
    rw [if_neg notHigh, if_neg notLow, Option.map_eq_some_iff] at counted
    obtain ⟨counted, more, rfl⟩ := counted
    have shorter := ih more
    simp only [List.length_cons]
    split_ifs <;> omega

end Tomas.JsStrings
