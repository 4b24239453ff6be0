import Mathlib.Data.List.Basic
import Mathlib.Order.RelClasses
import Mathlib.Tactic.Choose
import Tomas.Methods
import Tomas.Runs

/-! `TomasClassloader`, over jars and a parent loader whose answers do not change.
A class is defined after its superclass and interfaces, which come through
`loadClass` again; the loader remembers what it has defined. The JDK does not let
it define a name that begins with `java.`. -/
namespace Tomas.ClassLoading
open Tomas.Methods Tomas.Runs

/-- What the URLs and the parent have: for a name that has a class in a jar, its
superclass and interfaces. No class is above itself. -/
structure Env (π : Type) where
  jars : String → Option (List String)
  parent : String → Option π
  acyclic : WellFounded fun super name => ∃ supers, jars name = some supers ∧ super ∈ supers

def Env.Extends {π : Type} (env : Env π) (super name : String) : Prop :=
  ∃ supers, env.jars name = some supers ∧ super ∈ supers

inductive Throwable where
  | classNotFoundException
  | securityException
  | noClassDefFoundError
  | linkageError
  deriving DecidableEq, Repr

def Throwable.isException : Throwable → Bool
  | .classNotFoundException | .securityException => true
  | .noClassDefFoundError | .linkageError => false

/-- A class of the parent, or one this loader has defined, told apart from any
other definition by its place among them. -/
inductive Class (π : Type) where
  | ofParent (parentClass : π)
  | defined (name : String) (serial : Nat)
  deriving DecidableEq, Repr

structure Loader (π : Type) where
  classes : List String := []
  linked : List (Class π) := []
  deriving DecidableEq, Repr

abbrev Java (π α : Type) := Body (Loader π) Throwable α

variable {π : Type}

/-! ## The JDK -/

def findLoadedClass (name : String) : Java π (Option (Class π)) := do
  pure (((← get).classes.findIdx? (· == name)).map (.defined name))

def resolveClass (aClass : Class π) : Java π Unit :=
  modify fun loader => { loader with linked := loader.linked ++ [aClass] }

def startsWith (name start : String) : Bool := start.toList.isPrefixOf name.toList

/-- A name of the JDK's own is refused before anything else, and a second
definition of a name after its supertypes have been loaded. -/
def defineClass (name : String) (loadSupertypes : Java π Unit) : Java π (Class π) := do
  if startsWith name "java." then throw .securityException
  else
    loadSupertypes
    let loader ← get
    if name ∈ loader.classes then throw .linkageError
    else
      modify fun loader => { loader with classes := loader.classes ++ [name] }
      pure (.defined name loader.classes.length)

/-- The superclass and interfaces, one after the other. -/
def loadSupertypes {allowed : String → Prop} (load : ∀ super, allowed super → Java π (Class π)) :
    (supers : List String) → (∀ name ∈ supers, allowed name) → Java π Unit
  | [], _ => pure ()
  | super :: supers, known => do
    match ← attempt (· == .classNotFoundException) (load super (known super List.mem_cons_self)) with
    | none => throw .noClassDefFoundError
    | some _ => loadSupertypes load supers fun other member => known other (List.mem_cons_of_mem _ member)

def URLClassLoader.findClass (env : Env π) (name : String)
    (load : ∀ super, env.Extends super name → Java π (Class π)) : Java π (Class π) :=
  match jar : env.jars name with
  | none => throw .classNotFoundException
  | some supers => defineClass name (loadSupertypes load supers fun _ member => ⟨supers, jar, member⟩)

/-- The parent is asked first. -/
def ClassLoader.loadClass (env : Env π) (name : String) (resolve : Bool)
    (findClass : Java π (Class π)) : Java π (Class π) := do
  let aClass ←
    match ← findLoadedClass name with
    | some loadedClass => pure loadedClass
    | none =>
      match env.parent name with
      | some parentClass => pure (.ofParent parentClass)
      | none => findClass
  if resolve then resolveClass aClass
  pure aClass

/-! ## `TomasClassloader` -/

def TomasClassloader.findClass (env : Env π) (name : String)
    (load : ∀ super, env.Extends super name → Java π (Class π)) : Java π (Class π) :=
  URLClassLoader.findClass env name load

def TomasClassloader.loadClass (env : Env π) (name : String) (resolve : Bool) : Java π (Class π) := do
  let findClass := TomasClassloader.findClass env name fun super _above =>
    TomasClassloader.loadClass env super false
  match ← findLoadedClass name with
  | some loadedClass => pure loadedClass
  | none =>
    if startsWith name "sun." || startsWith name "java." then
      ClassLoader.loadClass env name resolve findClass
    else
      let found ← attempt Throwable.isException do
        let aClass ← findClass
        if resolve then resolveClass aClass
        pure aClass
      match found with
      | some aClass => pure aClass
      | none => ClassLoader.loadClass env name resolve findClass
termination_by env.acyclic.wrap name
decreasing_by exact _above

/-! ## Growth -/

/-- The names the parent is asked for first. -/
def reserved (name : String) : Bool := startsWith name "sun." || startsWith name "java."

/-- A class in a jar that the JDK does not let this loader define: its own name is
reserved, or it has such a class above it that the parent does not have either. -/
inductive Env.Refused (env : Env π) : String → Prop where
  | prohibited {name : String} (jar : (env.jars name).isSome = true)
      (ofJdk : startsWith name "java." = true) : env.Refused name
  | inherited {super name : String} (above : env.Extends super name) (refused : env.Refused super)
      (parentless : env.parent super = none) : env.Refused name

/-- The class comes from a jar: one has it, the parent is not preferred, and
nothing in the way of its definition is refused. -/
structure Env.Own (env : Env π) (name : String) : Prop where
  jar : (env.jars name).isSome = true
  preferred : ¬ (reserved name = true ∧ (env.parent name).isSome = true)
  permitted : ¬ env.Refused name

/-- Each name has been defined once, and none that is not the loader's own. -/
structure Sound (env : Env π) (loader : Loader π) : Prop where
  nodup : loader.classes.Nodup
  own : ∀ name ∈ loader.classes, env.Own name

/-- Some allowed names have been defined in between. -/
structure Growth (env : Env π) (allowed : String → Prop) (before after : Loader π) : Prop where
  appended : ∃ more, after.classes = before.classes ++ more ∧ ∀ name ∈ more, allowed name
  sound : Sound env after

section Growth

variable {env : Env π} {allowed other : String → Prop} {before middle after : Loader π} {name : String}

theorem growth_of_same (sound : Sound env before) (same : after.classes = before.classes) :
    Growth env allowed before after := by
  refine ⟨⟨[], by simp [same], by simp⟩, ?_, ?_⟩
  · rw [same]
    exact sound.nodup
  · rw [same]
    exact sound.own

theorem growth_trans (first : Growth env allowed before middle) (second : Growth env allowed middle after) :
    Growth env allowed before after := by
  obtain ⟨early, appendedFirst, allowedFirst⟩ := first.appended
  obtain ⟨late, appendedSecond, allowedSecond⟩ := second.appended
  refine ⟨⟨early ++ late, ?_, ?_⟩, second.sound⟩
  · rw [appendedSecond, appendedFirst, List.append_assoc]
  · intro name member
    rcases List.mem_append.mp member with old | new
    · exact allowedFirst name old
    · exact allowedSecond name new

theorem growth_mono (weaker : ∀ name, allowed name → other name) (growth : Growth env allowed before after) :
    Growth env other before after := by
  obtain ⟨more, appended, permitted⟩ := growth.appended
  exact ⟨⟨more, appended, fun name member => weaker name (permitted name member)⟩, growth.sound⟩

/-- What is not allowed is not defined. -/
theorem growth_absent (growth : Growth env allowed before after) (absent : name ∉ before.classes)
    (excluded : ¬ allowed name) : name ∉ after.classes := by
  obtain ⟨more, appended, permitted⟩ := growth.appended
  rw [appended, List.mem_append]
  rintro (old | new)
  · exact absent old
  · exact excluded (permitted name new)

/-- A definition keeps its place. -/
theorem growth_keeps {serial : Nat} (growth : Growth env allowed before after)
    (there : before.classes[serial]? = some name) : after.classes[serial]? = some name := by
  obtain ⟨more, appended, -⟩ := growth.appended
  rw [appended, List.getElem?_append_left (List.getElem?_eq_some_iff.mp there).1, there]

end Growth

/-! ## One call -/

/-- The names whose definition the load of a class can bring about. -/
def Env.Below (env : Env π) (top name : String) : Prop := Relation.ReflTransGen env.Extends name top

/-- Nobody has the class. -/
def Env.Absent (env : Env π) (name : String) : Prop := env.jars name = none ∧ env.parent name = none

/-- Some class in a jar has a supertype that nobody has. -/
def Env.Incomplete (env : Env π) : Prop := ∃ super name, env.Extends super name ∧ env.Absent super

/-- How a class is found in the jars, and what has been done by then. -/
inductive Finds (env : Env π) (name : String) (before : Loader π) :
    Except Throwable (Class π) × Loader π → Prop where
  | defined {serial : Nat} {after : Loader π} (permitted : ¬ env.Refused name)
      (growth : Growth env (env.Below name) before after) (there : after.classes[serial]? = some name) :
      Finds env name before (.ok (.defined name serial), after)
  | refused {after : Loader π} (refused : env.Refused name)
      (growth : Growth env (env.Below name) before after) :
      Finds env name before (.error .securityException, after)
  | broken {after : Loader π} (growth : Growth env (env.Below name) before after)
      (incomplete : env.Incomplete) : Finds env name before (.error .noClassDefFoundError, after)

/-- How a call can end, and what it has done by then. -/
inductive Loads (env : Env π) (name : String) (before : Loader π) :
    Except Throwable (Class π) × Loader π → Prop where
  | ofParent {parentClass : π} {after : Loader π} (known : env.parent name = some parentClass)
      (foreign : ¬ env.Own name) (growth : Growth env (env.Below name) before after) :
      Loads env name before (.ok (.ofParent parentClass), after)
  | defined {serial : Nat} {after : Loader π} (own : env.Own name)
      (growth : Growth env (env.Below name) before after) (there : after.classes[serial]? = some name) :
      Loads env name before (.ok (.defined name serial), after)
  | absent (nobody : env.Absent name) : Loads env name before (.error .classNotFoundException, before)
  | refused {after : Loader π} (refused : env.Refused name) (parentless : env.parent name = none)
      (growth : Growth env (env.Below name) before after) :
      Loads env name before (.error .securityException, after)
  | broken {after : Loader π} (growth : Growth env (env.Below name) before after)
      (incomplete : env.Incomplete) :
      Loads env name before (.error .noClassDefFoundError, after)

section Calls

variable {env : Env π} {name : String} {before middle : Loader π}

private theorem findLoadedClass_apply :
    (findLoadedClass name : Java π (Option (Class π))) before =
      (.ok ((before.classes.findIdx? (· == name)).map (.defined name)), before) := by
  simp only [findLoadedClass, bind_apply, get_apply, pure_apply]

private theorem not_loaded (absent : name ∉ before.classes) :
    (findLoadedClass name : Java π (Option (Class π))) before = (.ok none, before) := by
  rw [findLoadedClass_apply, List.findIdx?_eq_none_iff.mpr]
  · rfl
  · intro other member
    rw [beq_eq_false_iff_ne]
    rintro rfl
    exact absent member

theorem refused_jar (refused : env.Refused name) : (env.jars name).isSome = true := by
  cases refused with
  | prohibited jar ofJdk => exact jar
  | inherited above refused parentless =>
    obtain ⟨supers, jar, -⟩ := above
    rw [jar]
    rfl

theorem loads_growth {outcome : Except Throwable (Class π)} {after : Loader π} (sound : Sound env before)
    (loads : Loads env name before (outcome, after)) : Growth env (env.Below name) before after := by
  cases loads with
  | ofParent known foreign growth => exact growth
  | defined own growth there => exact growth
  | absent nobody => exact growth_of_same sound rfl
  | refused refused parentless growth => exact growth
  | broken growth incomplete => exact growth

/-- What the supertypes of a class let become of it. -/
inductive Supertypes (env : Env π) (supers : List String) : Except Throwable Unit → Prop where
  | loaded (permitted : ∀ super ∈ supers, env.parent super = none → ¬ env.Refused super) :
      Supertypes env supers (.ok ())
  | refused {super : String} (member : super ∈ supers) (refused : env.Refused super)
      (parentless : env.parent super = none) : Supertypes env supers (.error .securityException)
  | broken (missing : env.Incomplete ∨ ∃ super ∈ supers, env.Absent super) :
      Supertypes env supers (.error .noClassDefFoundError)

/-- The supertypes are loaded, or the class below them cannot be defined. -/
private theorem loadSupertypes_cases {allowed : String → Prop}
    {load : ∀ super, allowed super → Java π (Class π)}
    (loads : ∀ super permitted before, Sound env before → Loads env super before (load super permitted before))
    (supers : List String) (known : ∀ name ∈ supers, allowed name) (sound : Sound env before) :
    ∃ outcome after, loadSupertypes load supers known before = (outcome, after) ∧
      Supertypes env supers outcome ∧
      Growth env (fun name => ∃ super ∈ supers, env.Below super name) before after := by
  induction supers generalizing before with
  | nil => exact ⟨.ok (), before, rfl, .loaded (List.forall_mem_nil _), growth_of_same sound rfl⟩
  | cons super supers ih =>
    have weaker : ∀ name, (∃ other ∈ supers, env.Below other name) →
        ∃ other ∈ super :: supers, env.Below other name := by
      rintro name ⟨other, member, below⟩
      exact ⟨other, List.mem_cons_of_mem _ member, below⟩
    have here : ∀ name, env.Below super name → ∃ other ∈ super :: supers, env.Below other name :=
      fun name below => ⟨super, List.mem_cons_self, below⟩
    rw [loadSupertypes, bind_apply, attempt_apply]
    have first := loads super (known super List.mem_cons_self) before sound
    generalize load super (known super List.mem_cons_self) before = ended at first
    obtain ⟨outcome, middle⟩ := ended
    have growth := growth_mono here (loads_growth sound first)
    cases outcome with
    | ok aClass =>
      have passes : env.parent super = none → ¬ env.Refused super := by
        intro parentless
        cases first with
        | ofParent known foreign growth => simp [known] at parentless
        | defined own growth there => exact own.permitted
      obtain ⟨outcome, after, ran, ends, more⟩ :=
        ih (fun other member => known other (List.mem_cons_of_mem _ member)) growth.sound
      refine ⟨outcome, after, ran, ?_, growth_trans growth (growth_mono weaker more)⟩
      cases ends with
      | loaded permitted => exact .loaded (List.forall_mem_cons.mpr ⟨passes, permitted⟩)
      | refused member refused parentless => exact .refused (List.mem_cons_of_mem _ member) refused parentless
      | broken missing =>
        refine .broken (missing.imp_right ?_)
        rintro ⟨other, member, nobody⟩
        exact ⟨other, List.mem_cons_of_mem _ member, nobody⟩
    | error cause =>
      cases first with
      | absent nobody =>
        exact ⟨_, before, rfl, .broken (Or.inr ⟨super, List.mem_cons_self, nobody⟩), growth⟩
      | refused refused parentless _ =>
        exact ⟨_, middle, rfl, .refused List.mem_cons_self refused parentless, growth⟩
      | broken _ incomplete => exact ⟨_, middle, rfl, .broken (Or.inl incomplete), growth⟩

theorem not_below_super {super : String} (extends_ : env.Extends super name) :
    ¬ env.Below super name := by
  intro below
  have cycle : Relation.TransGen env.Extends name name := Relation.TransGen.tail' below extends_
  exact env.acyclic.transGen.asymmetric _ _ cycle cycle

section Find

variable {load : ∀ super, env.Extends super name → Java π (Class π)}

private theorem findClass_none (noJar : env.jars name = none) :
    URLClassLoader.findClass env name load = throw .classNotFoundException := by
  unfold URLClassLoader.findClass
  split
  · rfl
  · rename_i supers jar
    rw [noJar] at jar
    cases jar

private theorem findClass_some {supers : List String} (jar : env.jars name = some supers) :
    URLClassLoader.findClass env name load =
      defineClass name (loadSupertypes load supers fun _ member => ⟨supers, jar, member⟩) := by
  unfold URLClassLoader.findClass
  split
  · rename_i noJar
    rw [jar] at noJar
    cases noJar
  · rename_i others other
    rw [jar] at other
    cases other
    rfl

/-- Only the supertypes that it loads stand between the loader and a definition,
if the name is none of the JDK's. -/
private theorem permitted_of_supers (plain : ¬ startsWith name "java." = true)
    (permitted : ∀ super, env.Extends super name → env.parent super = none → ¬ env.Refused super) :
    ¬ env.Refused name := by
  intro refused
  cases refused with
  | prohibited jar ofJdk => exact plain ofJdk
  | inherited above refused parentless => exact permitted _ above parentless refused

/-- One more definition. -/
private theorem growth_define (own : env.Own name) (growth : Growth env (env.Below name) before middle)
    (still : name ∉ middle.classes) :
    Growth env (env.Below name) before { middle with classes := middle.classes ++ [name] } := by
  refine growth_trans growth ⟨⟨[name], rfl, ?_⟩, ?_, ?_⟩
  · intro other member
    rw [List.mem_singleton.mp member]
    exact Relation.ReflTransGen.refl
  · refine List.nodup_append.mpr ⟨growth.sound.nodup, by simp, ?_⟩
    intro other member same new
    rw [List.mem_singleton.mp new]
    rintro rfl
    exact still member
  · intro other member
    rcases List.mem_append.mp member with old | new
    · exact growth.sound.own other old
    · rw [List.mem_singleton.mp new]
      exact own

/-- A class that has not been defined yet can be, unless it is refused or a
supertype is missing. -/
private theorem findClass_finds
    (loads : ∀ super above before, Sound env before → Loads env super before (load super above before))
    (jar : (env.jars name).isSome = true)
    (preferred : ¬ (reserved name = true ∧ (env.parent name).isSome = true))
    (absent : name ∉ before.classes) (sound : Sound env before) :
    Finds env name before (URLClassLoader.findClass env name load before) := by
  obtain ⟨supers, known⟩ := Option.isSome_iff_exists.mp jar
  rw [findClass_some known, defineClass]
  split
  · rename_i ofJdk
    exact .refused (.prohibited jar ofJdk) (growth_of_same sound rfl)
  · rename_i plain
    obtain ⟨outcome, middle, ran, ends, more⟩ :=
      loadSupertypes_cases loads supers (fun _ member => ⟨supers, known, member⟩) sound
    have growth : Growth env (env.Below name) before middle := by
      refine growth_mono ?_ more
      rintro other ⟨super, member, below⟩
      exact below.tail ⟨supers, known, member⟩
    rw [bind_apply, ran]
    cases ends with
    | loaded permitted =>
      have free : ¬ env.Refused name := by
        apply permitted_of_supers plain
        rintro super ⟨others, same, member⟩
        rw [known] at same
        cases same
        exact permitted super member
      have still : name ∉ middle.classes := by
        apply growth_absent more absent
        rintro ⟨super, member, below⟩
        exact not_below_super ⟨supers, known, member⟩ below
      dsimp only
      rw [bind_apply, get_apply]
      dsimp only
      rw [if_neg still, bind_apply, modify_apply]
      exact .defined free (growth_define ⟨jar, preferred, free⟩ growth still) List.getElem?_concat_length
    | refused member refused parentless =>
      exact .refused (.inherited ⟨supers, known, member⟩ refused parentless) growth
    | broken missing =>
      refine .broken growth ?_
      rcases missing with incomplete | ⟨super, member, nobody⟩
      · exact incomplete
      · exact ⟨super, name, ⟨supers, known, member⟩, nobody⟩

end Find

/-- Where the parent does not have the class, the jars decide. -/
private theorem loads_of_finds {ended : Except Throwable (Class π) × Loader π}
    (jar : (env.jars name).isSome = true) (parentless : env.parent name = none)
    (finds : Finds env name before ended) : Loads env name before ended := by
  cases finds with
  | defined permitted growth there =>
    have own : env.Own name := ⟨jar, by simp [parentless], permitted⟩
    exact .defined own growth there
  | refused refused growth => exact .refused refused parentless growth
  | broken growth incomplete => exact .broken growth incomplete

/-- What was loaded on the way counts as well. -/
private theorem loads_trans {ended : Except Throwable (Class π) × Loader π}
    (jar : (env.jars name).isSome = true) (first : Growth env (env.Below name) before middle)
    (loads : Loads env name middle ended) : Loads env name before ended := by
  cases loads with
  | ofParent known foreign growth => exact .ofParent known foreign (growth_trans first growth)
  | defined own growth there => exact .defined own (growth_trans first growth) there
  | absent nobody => simp [nobody.1] at jar
  | refused refused parentless growth => exact .refused refused parentless (growth_trans first growth)
  | broken growth incomplete => exact .broken (growth_trans first growth) incomplete

/-- Linking is not definition. -/
private theorem resolve_apply (resolve : Bool) (aClass : Class π) (before : Loader π) :
    ∃ linked, (if resolve = true then (do
        let _ ← resolveClass aClass
        pure aClass) else pure aClass : Java π (Class π)) before =
      (.ok aClass, { before with linked := linked }) := by
  cases resolve with
  | false => exact ⟨before.linked, rfl⟩
  | true => exact ⟨before.linked ++ [aClass], rfl⟩

private theorem loads_linked {aClass : Class π} {after : Loader π} (linked : List (Class π))
    (loads : Loads env name before (.ok aClass, after)) :
    Loads env name before (.ok aClass, { after with linked := linked }) := by
  cases loads with
  | ofParent known foreign growth =>
    exact .ofParent known foreign ⟨growth.appended, growth.sound.nodup, growth.sound.own⟩
  | defined own growth there =>
    exact .defined own ⟨growth.appended, growth.sound.nodup, growth.sound.own⟩ there

private theorem classLoader_loads {findClass : Java π (Class π)} (resolve : Bool) (sound : Sound env before)
    (absent : name ∉ before.classes)
    (preferred : ∀ parentClass, env.parent name = some parentClass → ¬ env.Own name)
    (loads : env.parent name = none → Loads env name before (findClass before)) :
    Loads env name before (ClassLoader.loadClass env name resolve findClass before) := by
  rw [ClassLoader.loadClass, bind_apply, not_loaded absent]
  cases known : env.parent name with
  | some parentClass =>
    obtain ⟨linked, resolved⟩ := resolve_apply resolve (.ofParent parentClass) before
    dsimp only
    rw [pure_bind, resolved]
    exact .ofParent known (preferred parentClass known) (growth_of_same sound rfl)
  | none =>
    have loads := loads known
    dsimp only
    rw [bind_apply]
    generalize findClass before = ended at loads
    obtain ⟨outcome, after⟩ := ended
    cases outcome with
    | ok aClass =>
      obtain ⟨linked, resolved⟩ := resolve_apply resolve aClass after
      dsimp only
      rw [resolved]
      exact loads_linked linked loads
    | error cause => exact loads

/-- Where the jars come first, an exception of theirs is dropped and the class is
looked for as usual. -/
private theorem childFirst_loads {findClass : Java π (Class π)} (resolve : Bool)
    (jar : (env.jars name).isSome = true) (childFirst : ¬ reserved name = true)
    (finds : ∀ before, Sound env before → name ∉ before.classes → Finds env name before (findClass before))
    (sound : Sound env before) (absent : name ∉ before.classes) :
    Loads env name before ((do
      let found ← attempt Throwable.isException do
        let aClass ← findClass
        if resolve then resolveClass aClass
        pure aClass
      match found with
      | some aClass => pure aClass
      | none => ClassLoader.loadClass env name resolve findClass : Java π (Class π)) before) := by
  have found := finds before sound absent
  rw [bind_apply, attempt_apply, bind_apply]
  generalize ran : findClass before = ended at found
  cases found with
  | @defined serial after permitted growth there =>
    have own : env.Own name := ⟨jar, fun both => childFirst both.1, permitted⟩
    obtain ⟨linked, resolved⟩ := resolve_apply resolve (.defined name serial) after
    dsimp only
    rw [resolved]
    exact loads_linked linked (.defined own growth there)
  | @refused middle refused growth =>
    have foreign : ¬ env.Own name := fun own => own.permitted refused
    have still : name ∉ middle.classes := fun member => foreign (growth.sound.own name member)
    refine loads_trans jar growth (classLoader_loads resolve growth.sound still (fun _ _ => foreign) ?_)
    intro parentless
    exact loads_of_finds jar parentless (finds middle growth.sound still)
  | broken growth incomplete => exact .broken growth incomplete

/-- Every call ends in one of five ways. -/
theorem loadClass_loads (name : String) (resolve : Bool) (sound : Sound env before) :
    Loads env name before (TomasClassloader.loadClass env name resolve before) := by
  induction name using env.acyclic.induction generalizing resolve before with
  | _ name ih =>
    rw [TomasClassloader.loadClass, bind_apply, findLoadedClass_apply]
    cases loaded : before.classes.findIdx? (· == name) with
    | some serial =>
      obtain ⟨inside, same, -⟩ := List.findIdx?_eq_some_iff_getElem.mp loaded
      have there : before.classes[serial]? = some name := by
        rw [List.getElem?_eq_getElem inside, beq_iff_eq.mp same]
      exact .defined (sound.own name (List.mem_of_getElem? there)) (growth_of_same sound rfl) there
    | none =>
      have absent : name ∉ before.classes := by
        intro member
        have different := List.findIdx?_eq_none_iff.mp loaded name member
        simp at different
      have above : ∀ super, env.Extends super name → ∀ before, Sound env before →
          Loads env super before (TomasClassloader.loadClass env super false before) :=
        fun super extends_ before sound => ih super extends_ false sound
      dsimp only [Option.map_none]
      by_cases first : reserved name = true
      · -- the parent is asked before the jars
        have goes : (startsWith name "sun." || startsWith name "java.") = true := first
        rw [if_pos goes]
        refine classLoader_loads resolve sound absent ?_ ?_
        · intro parentClass known own
          exact own.preferred ⟨first, by rw [known]; rfl⟩
        · intro parentless
          cases jar : env.jars name with
          | none =>
            rw [TomasClassloader.findClass, findClass_none jar]
            exact .absent ⟨jar, parentless⟩
          | some supers =>
            have some : (env.jars name).isSome = true := by rw [jar]; rfl
            exact loads_of_finds some parentless
              (findClass_finds above some (by simp [parentless]) absent sound)
      · have stays : ¬ (startsWith name "sun." || startsWith name "java.") = true := first
        rw [if_neg stays]
        cases jar : env.jars name with
        | none =>
          have foreign : ¬ env.Own name := fun own => by simpa [jar] using own.jar
          rw [bind_apply, attempt_apply, bind_apply, TomasClassloader.findClass, findClass_none jar]
          exact classLoader_loads resolve sound absent (fun _ _ => foreign)
            fun parentless => .absent ⟨jar, parentless⟩
        | some supers =>
          have some : (env.jars name).isSome = true := by rw [jar]; rfl
          refine childFirst_loads resolve some first ?_ sound absent
          intro before sound absent
          exact findClass_finds above some (fun both => first both.1) absent sound

end Calls

/-! ## Calls one after the other -/

structure Call where
  name : String
  resolve : Bool := false
  deriving DecidableEq, Repr

def outcome (env : Env π) (loader : Loader π) (call : Call) : Except Throwable (Class π) :=
  (TomasClassloader.loadClass env call.name call.resolve loader).1

def step (env : Env π) (loader : Loader π) (call : Call) : Option (Loader π) :=
  some (TomasClassloader.loadClass env call.name call.resolve loader).2

/-- The definitions the call brings about raise no error. -/
def Defines (env : Env π) (loader : Loader π) (call : Call) : Prop :=
  outcome env loader call ≠ .error .noClassDefFoundError

/-- Whose class it is, without its place among those of this loader. -/
def Class.source : Class π → π ⊕ String
  | .ofParent parentClass => .inl parentClass
  | .defined name _ => .inr name

open Classical in
/-- What a name stands for, whatever has been called before. -/
noncomputable def Env.answer (env : Env π) (name : String) : Except Throwable (π ⊕ String) :=
  if env.Own name then .ok (.inr name)
  else
    match env.parent name with
    | some parentClass => .ok (.inl parentClass)
    | none => .error (if (env.jars name).isSome then .securityException else .classNotFoundException)

/-- Where the class of a call comes from. Earlier calls make no difference. -/
structure Resolves (env : Env π) (loader : Loader π) (call : Call) : Prop where
  preferred : ∀ parentClass, reserved call.name = true → env.parent call.name = some parentClass →
    outcome env loader call = .ok (.ofParent parentClass)
  own : env.Own call.name → ∃ serial, outcome env loader call = .ok (.defined call.name serial)
  delegated : ∀ parentClass, ¬ env.Own call.name → env.parent call.name = some parentClass →
    outcome env loader call = .ok (.ofParent parentClass)
  absent : env.Absent call.name →
    outcome env loader call = .error .classNotFoundException ∧ step env loader call = some loader
  refused : env.Refused call.name → env.parent call.name = none →
    outcome env loader call = .error .securityException
  alone : (outcome env loader call).map Class.source = env.answer call.name

section Runs

variable {env : Env π} {loader next final : Loader π} {call : Call} {calls : List Call} {name : String}
  {result : Except Throwable (Class π)}

/-- What a name stands for once it has been loaded. -/
structure Answers (env : Env π) (loader : Loader π) (name : String)
    (result : Except Throwable (Class π)) : Prop where
  own : env.Own name → ∃ serial, result = .ok (.defined name serial) ∧
    loader.classes[serial]? = some name
  foreign : ¬ env.Own name → result =
    match env.parent name with
    | some parentClass => .ok (.ofParent parentClass)
    | none => .error (if (env.jars name).isSome then .securityException else .classNotFoundException)

private theorem call_loads (sound : Sound env loader) (stepped : step env loader call = some next) :
    Loads env call.name loader (outcome env loader call, next) := by
  cases stepped
  exact loadClass_loads call.name call.resolve sound

private theorem call_answers (sound : Sound env loader) (defines : Defines env loader call)
    (stepped : step env loader call = some next) :
    Answers env next call.name (outcome env loader call) := by
  have loads := call_loads sound stepped
  rw [Defines] at defines
  generalize outcome env loader call = result at loads defines
  cases loads with
  | ofParent known foreign growth =>
    refine ⟨fun own => absurd own foreign, fun _ => ?_⟩
    rw [known]
  | defined own growth there => exact ⟨fun _ => ⟨_, rfl, there⟩, fun foreign => absurd own foreign⟩
  | absent nobody =>
    refine ⟨fun own => by simpa [nobody.1] using own.jar, fun _ => ?_⟩
    simp [nobody.1, nobody.2]
  | refused refused parentless growth =>
    refine ⟨fun own => absurd refused own.permitted, fun _ => ?_⟩
    simp [parentless, refused_jar refused]
  | broken growth incomplete => exact absurd rfl defines

private theorem answers_alone (answers : Answers env loader name result) :
    result.map Class.source = env.answer name := by
  rw [Env.answer]
  split
  · rename_i own
    obtain ⟨serial, rfl, -⟩ := answers.own own
    rfl
  · rename_i foreign
    rw [answers.foreign foreign]
    cases env.parent name <;> rfl

private theorem call_resolves (sound : Sound env loader) (defines : Defines env loader call)
    (stepped : step env loader call = some next) : Resolves env loader call := by
  have answers := call_answers sound defines stepped
  have foreign := answers.foreign
  constructor
  · intro parentClass first known
    rw [foreign fun own => own.preferred ⟨first, by rw [known]; rfl⟩, known]
  · intro own
    obtain ⟨serial, same, -⟩ := answers.own own
    exact ⟨serial, same⟩
  · intro parentClass other known
    rw [foreign other, known]
  · intro nobody
    have failed : outcome env loader call = .error .classNotFoundException := by
      rw [foreign fun own => by simpa [nobody.1] using own.jar, nobody.2]
      simp [nobody.1]
    have loads := call_loads sound stepped
    rw [failed] at loads
    cases loads with
    | absent _ => exact ⟨failed, stepped⟩
  · intro refused parentless
    rw [foreign fun own => own.permitted refused, parentless]
    simp [refused_jar refused]
  · exact answers_alone answers

private theorem answers_keeps {allowed : String → Prop} (growth : Growth env allowed loader next)
    (answers : Answers env loader name result) : Answers env next name result := by
  refine ⟨?_, answers.foreign⟩
  intro own
  obtain ⟨serial, same, there⟩ := answers.own own
  exact ⟨serial, same, growth_keeps growth there⟩

/-- A name stands for one class only. -/
private theorem answers_unique {other : Except Throwable (Class π)} (sound : Sound env loader)
    (first : Answers env loader name result) (second : Answers env loader name other) :
    result = other := by
  by_cases own : env.Own name
  · obtain ⟨serial, rfl, there⟩ := first.own own
    obtain ⟨place, rfl, here⟩ := second.own own
    have inside := (List.getElem?_eq_some_iff.mp there).1
    rw [(List.getElem?_inj inside sound.nodup).mp (there.trans here.symm)]
  · rw [first.foreign own, second.foreign own]

/-- Every call so far has been answered with what its name stands for now. -/
structure Settled (env : Env π) (calls : List Call) (loader : Loader π) : Prop where
  ran : exec (step env) {} calls = some loader
  sound : Sound env loader
  answered : ∀ before call, before ++ [call] <+: calls → ∀ reached,
    exec (step env) {} before = some reached →
      Resolves env reached call ∧ Answers env loader call.name (outcome env reached call)

private theorem settled_step (settled : Settled env calls loader) (defines : Defines env loader call)
    (stepped : step env loader call = some next) : Settled env (calls ++ [call]) next := by
  have growth := loads_growth settled.sound (call_loads settled.sound stepped)
  refine ⟨by rw [exec_snoc, settled.ran, Option.bind_some, stepped], growth.sound, ?_⟩
  intro before other isPrefix reached ranBefore
  rcases List.prefix_concat_iff.mp isPrefix with whole | earlier
  · obtain ⟨rfl, same⟩ := List.append_inj' whole rfl
    rw [settled.ran] at ranBefore
    cases ranBefore
    cases List.singleton_inj.mp same
    exact ⟨call_resolves settled.sound defines stepped, call_answers settled.sound defines stepped⟩
  · obtain ⟨resolves, answers⟩ := settled.answered before other earlier reached ranBefore
    exact ⟨resolves, answers_keeps growth answers⟩

private theorem settled_nil : Settled env [] {} := by
  refine ⟨rfl, ⟨List.nodup_nil, ?_⟩, ?_⟩
  · intro name member
    cases member
  · intro before call isPrefix
    simp at isPrefix

/-- Definitions raise no error where no supertype is missing. -/
theorem defines_of_complete (complete : ¬ env.Incomplete) : EachStep (step env) {} calls (Defines env) := by
  intro before call isPrefix reached ranBefore failed
  have sound : Sound env reached := by
    refine exec_history (fun _ => Sound env) (fun _ => True) settled_nil.sound ?_ (fun _ _ => trivial)
      ranBefore
    intro _ loader call next sound _ stepped
    exact (loads_growth sound (call_loads sound stepped)).sound
  have stepped : step env reached call = some _ := rfl
  have loads := call_loads sound stepped
  rw [failed] at loads
  cases loads with
  | broken growth incomplete => exact complete incomplete

/-- Over any calls whose definitions raise no error: a reserved name the parent
has is the parent's, any other name that a jar has and the loader may define is
this loader's own, a name nobody has is not found, and what may not be defined is
refused, unless the parent has it. Calls with one name have one answer, which no
call before them changes, and no name is defined twice. -/
theorem class_resolution_stable (ran : exec (step env) {} calls = some final)
    (defines : EachStep (step env) {} calls (Defines env)) :
    EachStep (step env) {} calls (Resolves env) ∧ final.classes.Nodup ∧
      ∃ answers : String → Except Throwable (Class π), EachStep (step env) {} calls fun loader call =>
        outcome env loader call = answers call.name := by
  have settled : Settled env calls final := by
    refine exec_lawful (Settled env) settled_nil ?_ defines ran
    intro before loader call next settled defines stepped
    exact settled_step settled defines stepped
  refine ⟨?_, settled.sound.nodup, ?_⟩
  · intro before call isPrefix reached ranBefore
    exact (settled.answered before call isPrefix reached ranBefore).1
  · have chosen : ∀ name, ∃ answer, ∀ result, Answers env final name result → result = answer := by
      intro name
      by_cases known : ∃ answer, Answers env final name answer
      · obtain ⟨answer, answers⟩ := known
        exact ⟨answer, fun result other => answers_unique settled.sound other answers⟩
      · exact ⟨.error .classNotFoundException, fun result answers => absurd ⟨result, answers⟩ known⟩
    choose answers unique using chosen
    refine ⟨answers, ?_⟩
    intro before call isPrefix reached ranBefore
    exact unique call.name _ (settled.answered before call isPrefix reached ranBefore).2

/-- A jar with a class, its superclass, a `java.lang.Object` of its own, and a
class under a name of the JDK's that only the jar has. -/
private def agentJars : String → Option (List String)
  | "agent.Agent" => some ["agent.Base"]
  | "agent.Base" => some ["java.lang.Object"]
  | "java.lang.Object" => some []
  | "java.evil.Foo" => some ["java.lang.Object"]
  | _ => none

private def height : String → Nat
  | "agent.Agent" => 2
  | "agent.Base" | "java.evil.Foo" => 1
  | _ => 0

private theorem agentJars_cases {name super : String}
    (above : ∃ supers, agentJars name = some supers ∧ super ∈ supers) :
    (name = "agent.Agent" ∧ super = "agent.Base") ∨
      (name = "agent.Base" ∧ super = "java.lang.Object") ∨
      (name = "java.evil.Foo" ∧ super = "java.lang.Object") := by
  obtain ⟨supers, jar, member⟩ := above
  unfold agentJars at jar
  split at jar <;> cases jar <;> simp_all

private def agentEnv : Env Nat where
  jars := agentJars
  parent name := if name = "java.lang.Object" then some 0 else none
  acyclic := by
    refine Subrelation.wf ?_ (measure height).wf
    intro super name above
    change height super < height name
    rcases agentJars_cases above with ⟨rfl, rfl⟩ | ⟨rfl, rfl⟩ | ⟨rfl, rfl⟩ <;> decide

private theorem agentEnv_complete : ¬ agentEnv.Incomplete := by
  rintro ⟨super, name, above, nobody⟩
  rcases agentJars_cases above with ⟨rfl, rfl⟩ | ⟨rfl, rfl⟩ | ⟨rfl, rfl⟩ <;> cases nobody.1

/-- The jar's classes, the parent's `java.lang.Object`, a name nobody has and one
that only the JDK may define. -/
theorem class_resolution_stable_agent :
    let calls : List Call := [{ name := "agent.Agent" }, { name := "agent.Base", resolve := true },
      { name := "java.lang.Object" }, { name := "agent.Missing" }, { name := "java.evil.Foo" },
      { name := "agent.Agent" }]
    ∃ final, exec (step agentEnv) {} calls = some final ∧
      EachStep (step agentEnv) {} calls (Resolves agentEnv) ∧ final.classes.Nodup ∧
        ∃ answers : String → Except Throwable (Class Nat), EachStep (step agentEnv) {} calls
          fun loader call => outcome agentEnv loader call = answers call.name := by
  intro calls
  have ran : exec (step agentEnv) {} calls = some _ := rfl
  exact ⟨_, ran, class_resolution_stable ran (defines_of_complete agentEnv_complete)⟩

/-- A jar has the class and the parent does not, and yet it is neither defined nor
not found: the JDK throws, and nothing catches it. -/
theorem prohibited_class_is_refused :
    (agentEnv.jars "java.evil.Foo").isSome = true ∧ agentEnv.parent "java.evil.Foo" = none ∧
      Defines agentEnv {} { name := "java.evil.Foo" } ∧
      outcome agentEnv {} { name := "java.evil.Foo" } = .error .securityException := by
  have only : agentEnv.parent "java.evil.Foo" = none := rfl
  have defines : Defines agentEnv {} { name := "java.evil.Foo" } :=
    defines_of_complete agentEnv_complete [] { name := "java.evil.Foo" } (List.prefix_refl _) {} rfl
  refine ⟨rfl, only, defines, ?_⟩
  exact (call_resolves settled_nil.sound defines rfl).refused (.prohibited rfl (by decide)) only

end Runs

end Tomas.ClassLoading
