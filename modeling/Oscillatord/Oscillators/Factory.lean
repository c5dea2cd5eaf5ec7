import Oscillatord.Config.ConfigFile
import Oscillatord.Library.Runs

/-!
# The factories of the oscillators

Each driver registers its factory before `main` begins, in a table of five places. An oscillator is
made by the factory the configuration names, and keeps a pointer to the class of its driver, through
which it is called; but the driver looks for its class by the name it registers under, and
`oscillator_factory_destroy` looks for the factory by the name of the class.

A run is any sequence of registrations, of valid factories or not and of one name or several, and of
oscillators that are made, called and destroyed. The three lookups always agree, so that an
oscillator is called and destroyed by the driver that made it, which is the first registered under
its name of those that had a place (`factoryLaw_eachStep`).
-/

namespace Oscillatord

open StepRun

universe u

/-- The callbacks of `struct oscillator_class`. -/
inductive OscillatorCallback
  | getCtrl
  | save
  | parseAttributes
  | applyOutput
  | calibrate
  | getPhaseError
  | getDiscipliningStatus
  | pushGnssInfo
  deriving Repr, DecidableEq

/-- `struct oscillator_factory`: which of its pointers are set, and its name, with which its `new`
calls `oscillator_factory_init`. -/
structure OscillatorFactory where
  name : Option (List UInt8)
  new : Bool
  destroy : Bool
  callbacks : List OscillatorCallback
  deriving Repr, DecidableEq

/-- The factory of a driver. -/
def driverFactory (name : String) (callbacks : List OscillatorCallback) : OscillatorFactory :=
  ⟨some (ascii name), true, true, callbacks⟩

/-- `dummy_oscillator_factory`. -/
def dummyOscillatorFactory : OscillatorFactory :=
  driverFactory "dummy" [.getCtrl, .save, .parseAttributes, .applyOutput]

/-- `sim_oscillator_factory`. -/
def simOscillatorFactory : OscillatorFactory :=
  driverFactory "sim" [.getCtrl, .save, .parseAttributes, .applyOutput]

/-- `mRo50_oscillator_factory`. -/
def mRo50OscillatorFactory : OscillatorFactory :=
  driverFactory "mRO50" [.getCtrl, .parseAttributes, .applyOutput, .calibrate]

/-- `sa3x_oscillator_factory`. -/
def sa3xOscillatorFactory : OscillatorFactory := driverFactory "sa3x" [.getCtrl, .parseAttributes]

/-- `sa5x_oscillator_factory`. -/
def sa5xOscillatorFactory : OscillatorFactory :=
  driverFactory "sa5x"
    [.getCtrl, .getPhaseError, .getDiscipliningStatus, .parseAttributes, .pushGnssInfo]

/-- The drivers of the program. -/
def driverFactories : List OscillatorFactory :=
  [dummyOscillatorFactory, simOscillatorFactory, mRo50OscillatorFactory, sa3xOscillatorFactory,
    sa5xOscillatorFactory]

/-- `MAX_OSCILLATOR_FACTORIES`. -/
def maxOscillatorFactories : ℕ := 5

/-- `oscillator_factory_is_valid`, of a factory that is there. -/
def oscillatorFactoryIsValid (f : OscillatorFactory) : Bool :=
  f.destroy && decide (f.name.getD [] ≠ []) && f.new

/-- `struct oscillator`: its class, `none` for a null pointer. -/
structure Oscillator (ι : Type u) where
  cls : Option ι

variable {ι : Type u} (factory : ι → OscillatorFactory)

/-- `oscillator_factory_get_by_name`. -/
def oscillatorFactoryGetByName (factories : List ι) (name : List UInt8) : Option ι :=
  factories.find? fun p => decide ((factory p).name = some name)

/-- `oscillator_factory_register`: the table, and the return value. -/
def oscillatorFactoryRegister (factories : List ι) (p : Option ι) : List ι × ℤ :=
  match p with
  | none => (factories, -22)
  | some p =>
    if !oscillatorFactoryIsValid (factory p) then (factories, -22)
    else if factories.length = maxOscillatorFactories then (factories, -12)
    else (factories ++ [p], 0)

/-- `oscillator_factory_init`, as the `new` of a factory calls it. -/
def oscillatorFactoryInit (factories : List ι) (p : ι) : Oscillator ι :=
  ⟨oscillatorFactoryGetByName factory factories ((factory p).name.getD [])⟩

/-- `oscillator_factory_new`: the factory whose `new` is called. -/
def oscillatorFactoryNew (factories : List ι) (argz : List (List UInt8)) : Option ι :=
  (configGet argz (ascii "oscillator")).bind (oscillatorFactoryGetByName factory factories)

/-- `oscillator_factory_destroy`: the factory whose `destroy` is called. -/
def oscillatorFactoryDestroy (factories : List ι) (o : Oscillator ι) : Option ι :=
  (o.cls.bind fun p => (factory p).name).bind (oscillatorFactoryGetByName factory factories)

/-- What a call of an oscillator comes to. -/
inductive OscillatorCall (ι : Type u)
  | callback (driver : ι) (callback : OscillatorCallback)
  | returned (ret : ℤ)
  | crashed

/-- `oscillator_get_ctrl` and the other functions of this kind; `oscillator_calibrate` returns a
null pointer for `-EINVAL` and `-ENOSYS`. -/
def oscillatorCall (o : Option (Oscillator ι)) (c : OscillatorCallback) : OscillatorCall ι :=
  match o with
  | none => .returned (-22)
  | some o =>
    match o.cls with
    | none => .crashed
    | some p => if c ∈ (factory p).callbacks then .callback p c else .returned (-38)

/-! ### Runs -/

/-- The table, what was registered so far, and the oscillators, each with the driver that made
it. -/
structure FactoryRun (ι : Type u) where
  factories : List ι
  registered : List (Option ι)
  oscillators : ℕ → Option (ι × Oscillator ι)

inductive FactoryEvent (ι : Type u)
  | register (p : Option ι)
  /-- The `new` of the driver may fail. -/
  | new (place : ℕ) (argz : List (List UInt8)) (succeeds : Bool)
  | call (place : ℕ) (c : OscillatorCallback)
  | destroy (place : ℕ)

def factoryStart : FactoryRun ι := ⟨[], [], fun _ => none⟩

def factoryStep (s : FactoryRun ι) : FactoryEvent ι → FactoryRun ι
  | .register p =>
    { s with
      factories := (oscillatorFactoryRegister factory s.factories p).1
      registered := s.registered ++ [p] }
  | .new place argz succeeds =>
    match oscillatorFactoryNew factory s.factories argz with
    | none => s
    | some p =>
      if succeeds then
        { s with
          oscillators := Function.update s.oscillators place
            (some (p, oscillatorFactoryInit factory s.factories p)) }
      else s
  | .call _ _ => s
  | .destroy place => { s with oscillators := Function.update s.oscillators place none }

/-- The valid factories, in the order in which they were registered. -/
def validFactories (registered : List (Option ι)) : List ι :=
  registered.filterMap fun p => p.filter fun p => oscillatorFactoryIsValid (factory p)

/-- **The law of the factories.** The configuration chooses the first factory of the name among the
valid ones that had a place, and an oscillator is called and destroyed by the driver that made
it. -/
def FactoryLaw (s : FactoryRun ι) : FactoryEvent ι → Prop
  | .register _ => True
  | .new _ argz _ => oscillatorFactoryNew factory s.factories argz
      = (configGet argz (ascii "oscillator")).bind fun name =>
          ((validFactories factory s.registered).take maxOscillatorFactories).find? fun p =>
            decide ((factory p).name = some name)
  | .call place c => ∀ o ∈ s.oscillators place, oscillatorCall factory (some o.2) c
      = if c ∈ (factory o.1).callbacks then .callback o.1 c else .returned (-38)
  | .destroy place => ∀ o ∈ s.oscillators place,
      oscillatorFactoryDestroy factory s.factories o.2 = some o.1

/-- What holds between two steps. -/
structure FactoryInv (s : FactoryRun ι) : Prop where
  factories : s.factories = (validFactories factory s.registered).take maxOscillatorFactories
  cls : ∀ place, ∀ o ∈ s.oscillators place, o.2.cls = some o.1
  name : ∀ place, ∀ o ∈ s.oscillators place, ∃ name, (factory o.1).name = some name ∧
    oscillatorFactoryGetByName factory s.factories name = some o.1

variable {factory} {s : FactoryRun ι} {factories : List ι} {p : ι} {name : List UInt8}

/-- What is found has the name. -/
theorem name_of_getByName (h : oscillatorFactoryGetByName factory factories name = some p) :
    (factory p).name = some name := by
  simpa using List.find?_some h

/-- What is found is found again when more was registered. -/
theorem getByName_register (h : oscillatorFactoryGetByName factory factories name = some p)
    (q : Option ι) :
    oscillatorFactoryGetByName factory (oscillatorFactoryRegister factory factories q).1 name
      = some p := by
  cases q with
  | none => exact h
  | some q =>
    rw [oscillatorFactoryRegister]
    split_ifs
    · exact h
    · exact h
    · rw [oscillatorFactoryGetByName, List.find?_append, ← oscillatorFactoryGetByName, h,
        Option.some_or]

/-- The table after a registration is again the first that are valid. -/
theorem factories_register (h : FactoryInv factory s) (q : Option ι) :
    (oscillatorFactoryRegister factory s.factories q).1
      = (validFactories factory (s.registered ++ [q])).take maxOscillatorFactories := by
  rw [validFactories, List.filterMap_append, ← validFactories, List.take_append, ← h.factories]
  have hlength : s.factories.length
      = min maxOscillatorFactories (validFactories factory s.registered).length := by
    rw [h.factories, List.length_take]
  cases q with
  | none => simp [oscillatorFactoryRegister]
  | some q =>
    cases hvalid : oscillatorFactoryIsValid (factory q) with
    | false => simp [oscillatorFactoryRegister, Option.filter, hvalid]
    | true =>
      simp only [oscillatorFactoryRegister, Option.filter, hvalid, Bool.not_true,
        Bool.false_eq_true, if_false, if_true, List.filterMap_cons, List.filterMap_nil]
      split_ifs with hfull
      · rw [Nat.sub_eq_zero_of_le (by omega), List.take_zero, List.append_nil]
      · rw [List.take_of_length_le (by simp only [List.length_singleton]; omega)]

theorem FactoryInv.step (h : FactoryInv factory s) (e : FactoryEvent ι) :
    FactoryInv factory (factoryStep factory s e) := by
  cases e with
  | register q =>
    refine ⟨factories_register h q, h.cls, fun place o ho => ?_⟩
    obtain ⟨name, hname, hfound⟩ := h.name place o ho
    exact ⟨name, hname, getByName_register hfound q⟩
  | new place argz succeeds =>
    rw [factoryStep]
    rcases hnew : oscillatorFactoryNew factory s.factories argz with _ | p
    · exact h
    · split_ifs
      · obtain ⟨name, -, hfound⟩ := Option.bind_eq_some_iff.mp hnew
        have hname := name_of_getByName hfound
        refine ⟨h.factories, fun place' o ho => ?_, fun place' o ho => ?_⟩
        · simp only [Function.update_apply] at ho
          split_ifs at ho
          · obtain rfl := Option.some.inj ho
            simp only [oscillatorFactoryInit, hname, Option.getD_some]
            exact hfound
          · exact h.cls place' o ho
        · simp only [Function.update_apply] at ho
          split_ifs at ho
          · obtain rfl := Option.some.inj ho
            exact ⟨name, hname, hfound⟩
          · exact h.name place' o ho
      · exact h
  | call place c => exact h
  | destroy place =>
    refine ⟨h.factories, fun place' o ho => ?_, fun place' o ho => ?_⟩
    · simp only [factoryStep, Function.update_apply] at ho
      split_ifs at ho
      · cases ho
      · exact h.cls place' o ho
    · simp only [factoryStep, Function.update_apply] at ho
      split_ifs at ho
      · cases ho
      · exact h.name place' o ho

/-- **The factories.** In every run, whatever is registered, the lookups agree. -/
theorem factoryLaw_eachStep (factory : ι → OscillatorFactory) (es : List (FactoryEvent ι)) :
    EachStep (factoryStep factory) (FactoryLaw factory) factoryStart es := by
  have hstart : FactoryInv factory factoryStart :=
    ⟨rfl, fun place o ho => (by cases ho), fun place o ho => (by cases ho)⟩
  refine eachStep_of_invariant (J := FactoryInv factory) hstart (fun _ e h => h.step e)
    fun s e h => ?_
  cases e with
  | register p => trivial
  | new place argz succeeds =>
    rw [FactoryLaw, ← h.factories]
    rfl
  | call place c =>
    intro o ho
    simp only [oscillatorCall, h.cls place o ho]
  | destroy place =>
    intro o ho
    obtain ⟨name, hname, hfound⟩ := h.name place o ho
    rw [oscillatorFactoryDestroy, h.cls place o ho, Option.bind_some, hname, Option.bind_some,
      hfound]

/-- The drivers fill the table, and whatever the order of their constructors each is chosen by its
name. -/
theorem oscillatorFactoryNew_drivers {table : List OscillatorFactory}
    (hperm : table.Perm driverFactories) {f : OscillatorFactory} (hf : f ∈ driverFactories)
    {argz : List (List UInt8)} (hname : configGet argz (ascii "oscillator") = f.name) :
    (validFactories id (table.map some)).take maxOscillatorFactories = table ∧
      oscillatorFactoryNew id table argz = some f := by
  have hvalid : ∀ g ∈ table, oscillatorFactoryIsValid g = true := fun g hg =>
    (by decide : ∀ g ∈ driverFactories, oscillatorFactoryIsValid g = true) g (hperm.mem_iff.mp hg)
  have hall : validFactories id (table.map some) = table := by
    rw [validFactories, List.filterMap_map]
    refine (List.filterMap_congr fun g hg => ?_).trans List.filterMap_some
    simp [Option.filter, hvalid g hg]
  have hdistinct : ∀ f ∈ driverFactories, ∀ g ∈ driverFactories, f.name = g.name → f = g := by
    decide
  have hsome : ∀ f ∈ driverFactories, f.name.isSome = true := by decide
  obtain ⟨name, hf'⟩ := Option.isSome_iff_exists.mp (hsome f hf)
  refine ⟨by rw [hall, List.take_of_length_le (by rw [hperm.length_eq]; decide)], ?_⟩
  rw [oscillatorFactoryNew, hname, hf', Option.bind_some]
  have hfound : (oscillatorFactoryGetByName id table name).isSome = true := by
    rw [oscillatorFactoryGetByName, List.find?_isSome]
    exact ⟨f, hperm.mem_iff.mpr hf, decide_eq_true hf'⟩
  obtain ⟨g, hg⟩ := Option.isSome_iff_exists.mp hfound
  have hgname := name_of_getByName hg
  have hgmem := hperm.mem_iff.mp (List.mem_of_find?_eq_some hg)
  rw [hg, hdistinct f hf g hgmem (hf'.trans hgname.symm)]

end Oscillatord
