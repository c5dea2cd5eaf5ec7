import Mathlib.Algebra.Order.Group.Int
import Mathlib.Data.List.Basic
import Mathlib.Tactic.Common

/-!
# Setting the configuration of the receiver

`gnss_set_configuration` compares the configuration in the RAM of the receiver with the requested
one, and sends the requested one until the receiver takes it and is reset, for a bounded number of
attempts. Its result is one flag.

`ConfigurationLaw` says what that flag should mean, and that the comparison is not satisfied by a
read that failed or by a key that is absent. It holds exactly for the inputs that meet
`ConfigurationMet` (`configurationLaw_iff`): a comparison that finds no difference has seen every
key, and the attempt that succeeds is not the last one, whose success the counter of the loop
reports as a failure.
-/

namespace Oscillatord

/-! ### The comparison with the RAM -/

/-- `UBLOXCFG_KEYVAL_t`, with the raw form of its value. -/
structure UbloxcfgKeyval where
  id : UInt32
  raw : UInt64
  deriving Repr, DecidableEq

/-- What `rxGetConfig` leaves: the count it returns, negative when it fails, and the array. -/
structure RamConfig where
  nAllKvRam : ℤ
  allKvRam : List UbloxcfgKeyval
  deriving Repr, DecidableEq

/-- The items the loops over the array see. -/
def RamConfig.items (ram : RamConfig) : List UbloxcfgKeyval :=
  ram.allKvRam.take ram.nAllKvRam.toNat

/-- The inner loop of the comparison, on the flag and one requested item. -/
def checkKvCfg (items : List UbloxcfgKeyval) (receiverconfigured : Bool)
    (kvCfg : UbloxcfgKeyval) : Bool :=
  items.foldl
    (fun configured kvRam =>
      if kvRam.id = kvCfg.id then if kvRam.raw ≠ kvCfg.raw then false else configured
      else configured)
    receiverconfigured

/-- `check_gnss_config_in_ram`. -/
def checkGnssConfigInRam (ram : RamConfig) (allKvCfg : List UbloxcfgKeyval) : Bool :=
  allKvCfg.foldl (checkKvCfg ram.items) true

/-! ### The attempts -/

/-- `GNSS_RECONFIGURE_MAX_TRY`. -/
def gnssReconfigureMaxTry : ℕ := 5

/-- An attempt: whether `rxSetConfig` succeeds, and the `rxReset` that follows it then. -/
structure ConfigAttempt where
  setConfig : Bool
  reset : Bool
  deriving Repr, DecidableEq

/-- The receiver has taken the configuration and was reset. -/
def ConfigAttempt.succeeds (attempt : ConfigAttempt) : Bool := attempt.setConfig && attempt.reset

/-- The loop of the attempts, with the attempts it makes. -/
def reconfigure (attempts : ℕ → ConfigAttempt) (tries : ℕ) : Bool × List ConfigAttempt :=
  let attempt := attempts tries
  if attempt.setConfig && !attempt.reset then (false, [attempt])
  else if tries < gnssReconfigureMaxTry then
    if attempt.setConfig then (true, [attempt])
    else
      let (configured, made) := reconfigure attempts (tries + 1)
      (configured, attempt :: made)
  else (false, [attempt])
termination_by gnssReconfigureMaxTry - tries

/-- `gnss_set_configuration`, for the list the defaults and the user's own values make: its result,
and the attempts it makes. -/
def gnssSetConfiguration (ram : RamConfig) (allKvCfg : List UbloxcfgKeyval)
    (attempts : ℕ → ConfigAttempt) : Bool × List ConfigAttempt :=
  if checkGnssConfigInRam ram allKvCfg then (true, []) else reconfigure attempts 0

/-! ### The law -/

/-- The RAM was read and holds every requested item. -/
structure RamHolds (ram : RamConfig) (allKvCfg : List UbloxcfgKeyval) : Prop where
  read : 0 ≤ ram.nAllKvRam
  holds : ∀ kvCfg ∈ allKvCfg, kvCfg ∈ ram.items

/-- **The law of `gnss_set_configuration`.** -/
structure ConfigurationLaw (ram : RamConfig) (allKvCfg : List UbloxcfgKeyval)
    (attempts : ℕ → ConfigAttempt) : Prop where
  result : (gnssSetConfiguration ram allKvCfg attempts).1 = true ↔
    RamHolds ram allKvCfg ∨
      ∃ attempt ∈ (gnssSetConfiguration ram allKvCfg attempts).2, attempt.succeeds = true
  check : checkGnssConfigInRam ram allKvCfg = true → RamHolds ram allKvCfg

/-- The RAM has another value for a requested key. -/
def RamDiffers (ram : RamConfig) (allKvCfg : List UbloxcfgKeyval) : Prop :=
  ∃ kvCfg ∈ allKvCfg, ∃ kvRam ∈ ram.items, kvRam.id = kvCfg.id ∧ kvRam.raw ≠ kvCfg.raw

/-- The receiver takes the configuration for the first time at attempt `k`, and is reset. -/
def TakenAt (attempts : ℕ → ConfigAttempt) (k : ℕ) : Prop :=
  (attempts k).succeeds = true ∧ ∀ j < k, (attempts j).setConfig = false

/-- What the law needs: a RAM without another value for a requested key holds them all; with
another value, the configuration is not taken at the last attempt, and is taken before it if the
RAM holds the requested values as well. -/
structure ConfigurationMet (ram : RamConfig) (allKvCfg : List UbloxcfgKeyval)
    (attempts : ℕ → ConfigAttempt) : Prop where
  same : ¬ RamDiffers ram allKvCfg → RamHolds ram allKvCfg
  last : RamDiffers ram allKvCfg → ¬ TakenAt attempts gnssReconfigureMaxTry
  both : RamDiffers ram allKvCfg → RamHolds ram allKvCfg →
    ∃ k < gnssReconfigureMaxTry, TakenAt attempts k

/-! ### What the loops compute -/

theorem checkKvCfg_eq_true_iff {items : List UbloxcfgKeyval} {configured : Bool}
    {kvCfg : UbloxcfgKeyval} :
    checkKvCfg items configured kvCfg = true ↔
      configured = true ∧ ∀ kvRam ∈ items, kvRam.id = kvCfg.id → kvRam.raw = kvCfg.raw := by
  induction items generalizing configured with
  | nil => simp [checkKvCfg]
  | cons kvRam items ih =>
    have hcons : checkKvCfg (kvRam :: items) configured kvCfg
        = checkKvCfg items (if kvRam.id = kvCfg.id then
            if kvRam.raw ≠ kvCfg.raw then false else configured else configured) kvCfg := rfl
    rw [hcons, ih]
    by_cases hid : kvRam.id = kvCfg.id <;> by_cases hraw : kvRam.raw = kvCfg.raw <;>
      simp [hid, hraw]

theorem foldl_checkKvCfg_eq_true_iff {items allKvCfg : List UbloxcfgKeyval} {configured : Bool} :
    allKvCfg.foldl (checkKvCfg items) configured = true ↔
      configured = true ∧ ∀ kvCfg ∈ allKvCfg, ∀ kvRam ∈ items,
        kvRam.id = kvCfg.id → kvRam.raw = kvCfg.raw := by
  induction allKvCfg generalizing configured with
  | nil => simp
  | cons kvCfg allKvCfg ih =>
    rw [List.foldl_cons, ih, checkKvCfg_eq_true_iff, List.forall_mem_cons, and_assoc]

/-- **The comparison** finds a difference exactly when the RAM has another value for a requested
key. -/
theorem checkGnssConfigInRam_eq_true_iff {ram : RamConfig} {allKvCfg : List UbloxcfgKeyval} :
    checkGnssConfigInRam ram allKvCfg = true ↔ ¬ RamDiffers ram allKvCfg := by
  rw [checkGnssConfigInRam, foldl_checkKvCfg_eq_true_iff]
  simp [RamDiffers]

/-- From the attempt `tries` on, the configuration is taken for the first time at `k`. -/
def TakenFrom (attempts : ℕ → ConfigAttempt) (tries k : ℕ) : Prop :=
  tries ≤ k ∧ (attempts k).succeeds = true ∧ ∀ j < k, tries ≤ j → (attempts j).setConfig = false

variable {attempts : ℕ → ConfigAttempt} {tries : ℕ}

/-- An attempt that succeeds is the first one. -/
theorem takenFrom_of_setConfig (h : (attempts tries).setConfig = true) {k : ℕ} :
    TakenFrom attempts tries k ↔ k = tries ∧ (attempts tries).succeeds = true := by
  constructor
  · rintro ⟨hle, hsucceeds, hbefore⟩
    rcases hle.lt_or_eq with hlt | rfl
    · rw [hbefore tries hlt le_rfl] at h
      cases h
    · exact ⟨rfl, hsucceeds⟩
  · rintro ⟨rfl, hsucceeds⟩
    exact ⟨le_rfl, hsucceeds, fun j hj hle => absurd hle (not_le.mpr hj)⟩

/-- An attempt that fails leaves it to those after it. -/
theorem takenFrom_succ (h : (attempts tries).setConfig = false) {k : ℕ} :
    TakenFrom attempts tries k ↔ TakenFrom attempts (tries + 1) k := by
  constructor
  · rintro ⟨hle, hsucceeds, hbefore⟩
    have hne : tries ≠ k := by
      rintro rfl
      simp [ConfigAttempt.succeeds, h] at hsucceeds
    exact ⟨by omega, hsucceeds, fun j hj hle => hbefore j hj (by omega)⟩
  · rintro ⟨hle, hsucceeds, hbefore⟩
    refine ⟨by omega, hsucceeds, fun j hj hle' => ?_⟩
    rcases hle'.lt_or_eq with hlt | rfl
    · exact hbefore j hj hlt
    · exact h

/-- From the last attempt on there is one attempt left. -/
theorem takenFrom_of_le {k : ℕ} (hk : k ≤ tries) :
    TakenFrom attempts tries k ↔ k = tries ∧ (attempts tries).succeeds = true := by
  constructor
  · rintro ⟨hle, hsucceeds, -⟩
    obtain rfl := le_antisymm hk hle
    exact ⟨rfl, hsucceeds⟩
  · rintro ⟨rfl, hsucceeds⟩
    exact ⟨le_rfl, hsucceeds, fun j hj hle => absurd hle (not_le.mpr hj)⟩

/-- **The loop of the attempts** makes one that succeeds exactly when the configuration is taken
at one of its attempts, and returns true exactly when it is not the last one. -/
theorem reconfigure_spec (attempts : ℕ → ConfigAttempt) (h : tries ≤ gnssReconfigureMaxTry) :
    ((reconfigure attempts tries).1 = true ↔
        ∃ k < gnssReconfigureMaxTry, TakenFrom attempts tries k) ∧
      ((∃ attempt ∈ (reconfigure attempts tries).2, attempt.succeeds = true) ↔
        ∃ k ≤ gnssReconfigureMaxTry, TakenFrom attempts tries k) := by
  fun_induction reconfigure attempts tries with
  | case1 tries attempt hreset =>
    obtain ⟨hset, hnot⟩ : attempt.setConfig = true ∧ attempt.reset = false := by
      simpa using hreset
    have hfails : attempt.succeeds = false := by simp [ConfigAttempt.succeeds, hnot]
    simp [takenFrom_of_setConfig hset, hfails, attempt]
  | case2 tries attempt hreset hlt hset =>
    have hsucceeds : attempt.succeeds = true := by
      simpa [ConfigAttempt.succeeds, hset] using hreset
    simp [takenFrom_of_setConfig hset, hsucceeds, attempt, hlt, hlt.le]
  | case3 tries attempt hreset hlt hset configured made heq ih =>
    have hset' : (attempts tries).setConfig = false := by simpa using hset
    have hfails : attempt.succeeds = false := by simp [ConfigAttempt.succeeds, hset]
    obtain ⟨hresult, hmade⟩ := ih hlt
    simp only [heq] at hresult hmade
    simp only [takenFrom_succ hset', List.mem_cons, exists_eq_or_imp, hfails,
      Bool.false_eq_true, false_or]
    exact ⟨hresult, hmade⟩
  | case4 tries attempt hreset hlast =>
    -- the counter has reached its bound: whatever this attempt does is a failure
    obtain rfl := le_antisymm h (not_lt.mp hlast)
    constructor
    · refine iff_of_false nofun ?_
      rintro ⟨k, hk, hle, -⟩
      exact absurd hle (not_le.mpr hk)
    · rw [exists_congr fun k => and_congr_right fun hk => takenFrom_of_le hk]
      simp [attempt]

theorem takenFrom_zero {k : ℕ} : TakenFrom attempts 0 k ↔ TakenAt attempts k := by
  simp [TakenFrom, TakenAt]

/-! ### When the law holds -/

/-- The first attempt at which the configuration is taken is the only one. -/
theorem TakenAt.eq {j k : ℕ} (hj : TakenAt attempts j) (hk : TakenAt attempts k) : j = k := by
  have hle : ∀ {j k : ℕ}, TakenAt attempts j → TakenAt attempts k → j ≤ k := by
    intro j k hj hk
    by_contra hlt
    have hset : (attempts k).setConfig = true := by
      have hsucceeds := hk.1
      simp only [ConfigAttempt.succeeds, Bool.and_eq_true] at hsucceeds
      exact hsucceeds.1
    rw [hj.2 k (not_le.mp hlt)] at hset
    cases hset
  exact le_antisymm (hle hj hk) (hle hk hj)

variable {ram : RamConfig} {allKvCfg : List UbloxcfgKeyval}

/-- With another value in the RAM, what the function returns, and what its attempts do. -/
theorem gnssSetConfiguration_of_differs (attempts : ℕ → ConfigAttempt)
    (h : RamDiffers ram allKvCfg) :
    ((gnssSetConfiguration ram allKvCfg attempts).1 = true ↔
        ∃ k < gnssReconfigureMaxTry, TakenAt attempts k) ∧
      ((∃ attempt ∈ (gnssSetConfiguration ram allKvCfg attempts).2, attempt.succeeds = true) ↔
        ∃ k ≤ gnssReconfigureMaxTry, TakenAt attempts k) := by
  have hcheck : checkGnssConfigInRam ram allKvCfg = false := by
    rw [← Bool.not_eq_true, checkGnssConfigInRam_eq_true_iff, not_not]
    exact h
  have hspec := reconfigure_spec attempts (Nat.zero_le gnssReconfigureMaxTry)
  simp only [takenFrom_zero] at hspec
  rw [gnssSetConfiguration, hcheck]
  exact hspec

/-- The law with another value in the RAM. -/
theorem configurationLaw_iff_of_differs (attempts : ℕ → ConfigAttempt)
    (hdiffers : RamDiffers ram allKvCfg) :
    ConfigurationLaw ram allKvCfg attempts ↔ ConfigurationMet ram allKvCfg attempts := by
  obtain ⟨hresult, hmade⟩ := gnssSetConfiguration_of_differs attempts hdiffers
  have hcheck : ¬ checkGnssConfigInRam ram allKvCfg = true := by
    rw [checkGnssConfigInRam_eq_true_iff, not_not]
    exact hdiffers
  constructor
  · rintro ⟨hlaw, -⟩
    rw [hresult, hmade] at hlaw
    refine ⟨fun hsame => absurd hdiffers hsame, fun _ hlast => ?_, fun _ hholds => ?_⟩
    · obtain ⟨k, hk, htaken⟩ := hlaw.mpr (.inr ⟨_, le_rfl, hlast⟩)
      exact absurd (htaken.eq hlast) hk.ne
    · exact hlaw.mpr (.inl hholds)
  · rintro ⟨-, hlast, hboth⟩
    refine ⟨?_, fun h => absurd h hcheck⟩
    rw [hresult, hmade]
    constructor
    · rintro ⟨k, hk, htaken⟩
      exact .inr ⟨k, hk.le, htaken⟩
    · rintro (hholds | ⟨k, hk, htaken⟩)
      · exact hboth hdiffers hholds
      · rcases hk.lt_or_eq with hlt | rfl
        · exact ⟨k, hlt, htaken⟩
        · exact absurd htaken (hlast hdiffers)

/-- The law without another value in the RAM: no attempt is made. -/
theorem configurationLaw_iff_of_not_differs (attempts : ℕ → ConfigAttempt)
    (hdiffers : ¬ RamDiffers ram allKvCfg) :
    ConfigurationLaw ram allKvCfg attempts ↔ ConfigurationMet ram allKvCfg attempts := by
  have hcheck : checkGnssConfigInRam ram allKvCfg = true :=
    checkGnssConfigInRam_eq_true_iff.mpr hdiffers
  have hfunction : gnssSetConfiguration ram allKvCfg attempts = (true, []) := if_pos hcheck
  constructor
  · rintro ⟨-, hlaw⟩
    exact ⟨fun _ => hlaw hcheck, fun h => absurd h hdiffers, fun h => absurd h hdiffers⟩
  · rintro ⟨hsame, -, -⟩
    refine ⟨?_, fun _ => hsame hdiffers⟩
    rw [hfunction]
    exact iff_of_true rfl (.inl (hsame hdiffers))

/-- **`gnss_set_configuration` tells the truth** exactly on the inputs that meet the condition. -/
theorem configurationLaw_iff (ram : RamConfig) (allKvCfg : List UbloxcfgKeyval)
    (attempts : ℕ → ConfigAttempt) :
    ConfigurationLaw ram allKvCfg attempts ↔ ConfigurationMet ram allKvCfg attempts := by
  by_cases hdiffers : RamDiffers ram allKvCfg
  · exact configurationLaw_iff_of_differs attempts hdiffers
  · exact configurationLaw_iff_of_not_differs attempts hdiffers

/-- The configuration of the receiver cannot be read: the function reports that it is configured
as requested, and sends nothing. -/
theorem configurationLaw_fails_not_read :
    ¬ ConfigurationLaw ⟨-1, []⟩ [⟨0x30050001, 50⟩] fun _ => ⟨true, true⟩ := by
  intro h
  have hread : (0 : ℤ) ≤ -1 := (h.check rfl).read
  omega

end Oscillatord
