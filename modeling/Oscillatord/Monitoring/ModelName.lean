import Oscillatord.Config.ConfigFile
import Oscillatord.Daemon.MainLoop
import Oscillatord.Library.EnvzPointers

/-!
# The model of the oscillator in the responses

`monitoring_init` keeps what `config_get` returns for the key `oscillator`, a pointer into the
vector of the configuration, and the responses show the string it points to. Each time the main loop
saves the disciplining parameters it also disables the calibration at boot with `config_set`, which
removes an entry of the vector, and makes room for a new one with `realloc`, which may move the
vector.

The configuration itself goes on to name the same oscillator. The pointer does so exactly as long as
there was no save, or the vector was not moved and no entry `calibrate_first` comes before the
oscillator; otherwise it is too far by the entries removed before it (`modelName_law`).
-/

namespace Oscillatord

open StepRun

/-- The key of the model. -/
def oscillatorKey : List UInt8 := ascii "oscillator"

/-- The configuration, and the field `oscillator_model` of `struct monitoring`: a place in the
memory of the vector, `none` once the vector was moved away. -/
structure ModelName where
  argz : List (List UInt8)
  oscillatorModel : Option ℕ
  deriving DecidableEq

/-- What `monitoring_init` keeps. -/
def ModelName.start (argz : List (List UInt8)) : ModelName :=
  ⟨argz, Envz.offset equals oscillatorKey argz⟩

/-- The string `json_add_oscillator_data` shows; `rest` is what follows the vector in memory. -/
def ModelName.model (s : ModelName) (rest : List UInt8) : Option (List UInt8) :=
  s.oscillatorModel.map fun p => stringAt ((Envz.memory 0 s.argz ++ rest).drop p)

variable {D : Type}

/-- An effect of the main loop, and whether it moves the vector if it changes it. -/
def ModelName.step (s : ModelName) : MainEffect D × Bool → ModelName
  | (.disableCalibrateFirst, moved) =>
    ⟨configSet s.argz calibrateFirst falseText, if moved then none else s.oscillatorModel⟩
  | _ => s

/-- The calibration at boot is disabled. -/
def Disables (e : MainEffect D × Bool) : Bool :=
  match e.1 with
  | .disableCalibrateFirst => true
  | _ => false

/-- The vector is moved. -/
def Moves (e : MainEffect D × Bool) : Bool := Disables e && e.2

/-- The pointer is what `config_get` would return now. -/
def ModelName.Current (s : ModelName) : Prop :=
  s.oscillatorModel = Envz.offset equals oscillatorKey s.argz

/-- The entries `calibrate_first` that come before the oscillator. -/
def calibrationsBefore (argz : List (List UInt8)) : List (List UInt8) :=
  (Envz.before equals oscillatorKey argz).filter (Envz.matchesKey equals calibrateFirst)

variable {s : ModelName} {argz : List (List UInt8)} {es : List (MainEffect D × Bool)}

theorem oscillatorKey_ne : Envz.name equals oscillatorKey ≠ Envz.name equals calibrateFirst := by
  decide

theorem step_of_disables {e : MainEffect D × Bool} (h : Disables e = true) :
    s.step e = ⟨configSet s.argz calibrateFirst falseText,
      if e.2 then none else s.oscillatorModel⟩ := by
  obtain ⟨effect, moved⟩ := e
  cases effect with
  | disableCalibrateFirst => rfl
  | _ => cases h

theorem step_of_not_disables {e : MainEffect D × Bool} (h : Disables e = false) : s.step e = s := by
  obtain ⟨effect, moved⟩ := e
  cases effect with
  | disableCalibrateFirst => cases h
  | _ => rfl

/-- **The vector after a run**: it was given the value once for each save. -/
theorem argz_after (s : ModelName) (es : List (MainEffect D × Bool)) :
    (after ModelName.step s es).argz
      = (fun argz => Envz.add equals argz calibrateFirst falseText)^[es.countP Disables]
          s.argz := by
  induction es generalizing s with
  | nil => rfl
  | cons e es ih =>
    rw [after_cons, ih]
    cases he : Disables e with
    | true =>
      rw [List.countP_cons_of_pos he, Function.iterate_succ_apply, step_of_disables he]
      rfl
    | false => rw [List.countP_cons_of_neg (by simp [he]), step_of_not_disables he]

/-- **The pointer after a run**: it is what it was unless the vector was moved. -/
theorem oscillatorModel_after (s : ModelName) (es : List (MainEffect D × Bool)) :
    (after ModelName.step s es).oscillatorModel
      = if es.any Moves then none else s.oscillatorModel := by
  induction es generalizing s with
  | nil => rfl
  | cons e es ih =>
    rw [after_cons, ih, List.any_cons, Moves]
    cases he : Disables e with
    | true =>
      rw [step_of_disables he, Bool.true_and]
      cases e.2 with
      | true => simp
      | false => rfl
    | false => rw [step_of_not_disables he, Bool.false_and, Bool.false_or]

/-- The oscillator keeps its name. -/
theorem configGet_iterate (argz : List (List UInt8)) (n : ℕ) :
    configGet ((fun argz => Envz.add equals argz calibrateFirst falseText)^[n] argz) oscillatorKey
      = configGet argz oscillatorKey := by
  induction n generalizing argz with
  | zero => rfl
  | succ n ih => exact (ih _).trans (Envz.get_add_of_ne oscillatorKey_ne)

theorem zero_not_mem_calibrationEntry : 0 ∉ calibrationEntry := by decide

/-- Nor does an entry of a vector the daemon changed hold a terminator. -/
theorem zero_not_mem_iterate (hargz : ∀ entry ∈ argz, 0 ∉ entry) (n : ℕ) :
    ∀ entry ∈ (fun argz => Envz.add equals argz calibrateFirst falseText)^[n] argz, 0 ∉ entry := by
  induction n generalizing argz with
  | zero => exact hargz
  | succ n ih =>
    refine ih fun entry hentry => ?_
    rcases List.mem_append.mp hentry with hkept | hnew
    · exact hargz entry (List.mem_of_mem_eraseP hkept)
    · rw [List.mem_singleton.mp hnew]
      exact zero_not_mem_calibrationEntry

/-- A pointer is as far off as the entries removed before it are long. -/
theorem length_memory_take_eq_zero_iff (n : ℕ) :
    (Envz.memory 0 ((calibrationsBefore argz).take n)).length = 0 ↔
      n = 0 ∨ calibrationsBefore argz = [] := by
  rw [List.length_eq_zero_iff, Envz.memory_eq_nil_iff, List.take_eq_nil_iff]

/-- **The model that is shown.** Whatever the main loop does to a configuration that was read, the
configuration names the same oscillator. The pointer the monitoring keeps is that of its name, and
the responses show it, exactly when the calibration was never disabled, or no `realloc` moved the
vector and no entry `calibrate_first` comes before; as long as nothing was moved it is otherwise
too far by the first of these entries, one for each save. -/
theorem modelName_law {heap : List UInt8} {read : ConfigRead} {ret : ℤ} {model : List UInt8}
    (hinit : configInit heap read = (ret, argz))
    (hmodel : configGet argz oscillatorKey = some model) (es : List (MainEffect D × Bool)) :
    let s := after ModelName.step (ModelName.start argz) es
    configGet s.argz oscillatorKey = some model ∧
      (s.Current ↔
        es.any Disables = false ∨ es.any Moves = false ∧ calibrationsBefore argz = []) ∧
      (s.Current → ∀ rest, s.model rest = some model) ∧
      (es.any Moves = false → ∃ p, Envz.offset equals oscillatorKey s.argz = some p ∧
        s.oscillatorModel = some
          (p + (Envz.memory 0 ((calibrationsBefore argz).take (es.countP Disables))).length)) := by
  intro s
  have hzero : ∀ entry ∈ argz, 0 ∉ entry := fun entry hentry =>
    ((configVector_configInit hinit).line entry hentry).2
  have hargz : s.argz = _ := argz_after (ModelName.start argz) es
  have hpointer : s.oscillatorModel = _ := oscillatorModel_after (ModelName.start argz) es
  have hread : Envz.get equals argz oscillatorKey = some model := hmodel
  rw [Envz.get_eq_offset hzero []] at hread
  obtain ⟨p, hp, -⟩ := Option.map_eq_some_iff.mp hread
  obtain ⟨q, hq, hpq⟩ : ∃ q, Envz.offset equals oscillatorKey
      ((fun entries => Envz.add equals entries calibrateFirst falseText)^[es.countP Disables] argz)
        = some q ∧ p = q + (Envz.memory 0 ((calibrationsBefore argz).take _)).length :=
    Envz.offset_iterate_add oscillatorKey_ne hp _
  replace hpointer : s.oscillatorModel = if es.any Moves then none else some p := by
    rw [hpointer, ModelName.start, hp]
  replace hq : Envz.offset equals oscillatorKey s.argz = some q := by
    rw [hargz]
    exact hq
  have hget : configGet s.argz oscillatorKey = some model := by
    rw [hargz, configGet_iterate]
    exact hmodel
  refine ⟨hget, ?_, fun hcurrent rest => ?_, fun hmoves => ⟨q, hq, ?_⟩⟩
  · rw [ModelName.Current, hpointer, hq]
    cases hmoves : es.any Moves with
    | true =>
      obtain ⟨e, he, hmoved⟩ := List.any_eq_true.mp hmoves
      have hdisabled : es.any Disables = true :=
        List.any_eq_true.mpr ⟨e, he, (Bool.and_eq_true_iff.mp hmoved).1⟩
      simp [hdisabled]
    | false =>
      have hcount : es.any Disables = false ↔ es.countP Disables = 0 := by
        rw [List.any_eq_false, List.countP_eq_zero]
      have hoff : (Envz.memory 0 ((calibrationsBefore argz).take (es.countP Disables))).length = 0 ↔
          _ := length_memory_take_eq_zero_iff _
      rw [hcount, and_iff_right rfl, ← hoff]
      simp only [Bool.false_eq_true, if_false, Option.some.injEq]
      rw [hpq, calibrationsBefore]
      omega
  · rw [ModelName.model, hcurrent, ← hget]
    refine (Envz.get_eq_offset ?_ rest).symm
    rw [hargz]
    exact zero_not_mem_iterate hzero _
  · rw [hpointer, hmoves, hpq]
    rfl

/-- The entry of the calibration is in front of that of the oscillator. -/
def calibrateThenModel : List (List UInt8) :=
  [ascii "calibrate_first=true", ascii "oscillator=mRO50", ascii "socket-port=2958"]

/-- After one save the model is a digit of the port. -/
theorem modelName_law_calibrateThenModel :
    let s := after ModelName.step (ModelName.start calibrateThenModel)
      [((.disableCalibrateFirst : MainEffect Unit), false)]
    configGet s.argz oscillatorKey = some (ascii "mRO50") ∧ ¬ s.Current ∧
      s.model [] = some (ascii "8") := by
  have hinit : configInit [0] (.complete (Envz.stringify newline calibrateThenModel))
      = (0, calibrateThenModel) := by
    rw [configInit, removeComments_eq_filter]
    decide
  obtain ⟨hmodel, hcurrent, -⟩ := modelName_law hinit (show _ = some (ascii "mRO50") by decide)
    [((.disableCalibrateFirst : MainEffect Unit), false)]
  exact ⟨hmodel, mt hcurrent.mp (by decide), by decide⟩

end Oscillatord
