import Oscillatord.Library.Handles

/-!
# Threads that borrow handles

A main program acquires, uses and releases handles, and in between starts threads and waits for
their end. From its start to its end a thread may use the handles it was given at any time.

`Law` judges the steps of an interleaving: no handle, of those that are watched, is used or released
after its release. `Scoped` is about the main program alone: its own operations are proper, and
between any two of them no thread that runs was given a handle that is released. All the
interleavings obey the law exactly when the main program is scoped (`forall_eachStep_law_iff`).
-/

namespace ThreadScopes

open StepRun Handles

universe u v

/-- A command of the main program. -/
inductive Cmd (η : Type u) (τ : Type v)
  | op (o : Op η)
  | spawn (thread : τ)
  | join (thread : τ)
  deriving Repr, DecidableEq

/-- What is made of the handles, and the threads that run. -/
structure World (η : Type u) (τ : Type v) where
  table : η → Status Unit
  running : τ → Bool

/-- Nothing was acquired and no thread started. -/
def World.fresh (η : Type u) (τ : Type v) : World η τ := ⟨fun _ => .unknown, fun _ => false⟩

variable {η : Type u} {τ : Type v}

/-- The operation of a command is proper, if its handle is watched. -/
def Cmd.Proper (watched : η → Prop) (w : World η τ) : Cmd η τ → Prop
  | .op o => watched o.handle → o.Proper w.table
  | _ => True

/-- No thread that runs was given a watched handle that is released. -/
def Quiet (watched : η → Prop) (uses : τ → η → Prop) (w : World η τ) : Prop :=
  ∀ t h, w.running t = true → uses t h → watched h → w.table h ≠ .released

/-- Nothing is released. -/
def World.Unreleased (w : World η τ) : Prop := ∀ h, w.table h ≠ .released

theorem World.unreleased_fresh : (World.fresh η τ).Unreleased := fun _ => by simp [World.fresh]

theorem World.Unreleased.quiet {watched : η → Prop} {uses : τ → η → Prop} {w : World η τ}
    (hw : w.Unreleased) : Quiet watched uses w :=
  fun _ h _ _ _ => hw h

/-- The commands release nothing and wait for no thread. -/
def Keeps (program : List (Cmd η τ)) : Prop :=
  (∀ h, .op (.release h) ∉ program) ∧ ∀ t, .join t ∉ program

variable [DecidableEq η] [DecidableEq τ]

/-- What a command changes. -/
def Cmd.run (w : World η τ) : Cmd η τ → World η τ
  | .op o => { w with table := o.apply () w.table }
  | .spawn thread => { w with running := Function.update w.running thread true }
  | .join thread => { w with running := Function.update w.running thread false }

/-- What the commands of a program change. -/
abbrev runs (w : World η τ) (program : List (Cmd η τ)) : World η τ := after Cmd.run w program

/-- The main program goes on, or a thread uses a handle. -/
inductive Event (η : Type u) (τ : Type v)
  | main
  | thread (thread : τ) (handle : η)
  deriving Repr, DecidableEq

/-- A step of the main program, with what is left of it, or of a thread. -/
def step (s : List (Cmd η τ) × World η τ) : Event η τ → List (Cmd η τ) × World η τ
  | .main =>
    match s.1 with
    | [] => s
    | c :: rest => (rest, c.run s.2)
  | .thread _ _ => s

variable (watched : η → Prop) (uses : τ → η → Prop)

/-- A step is on no watched handle that is released. -/
def Law (s : List (Cmd η τ) × World η τ) : Event η τ → Prop
  | .main => ∀ c ∈ s.1.head?, c.Proper watched s.2
  | .thread t h => s.2.running t = true → uses t h → watched h → s.2.table h ≠ .released

/-- The main program keeps what its threads were given. -/
def Scoped : World η τ → List (Cmd η τ) → Prop
  | w, [] => Quiet watched uses w
  | w, c :: rest => Quiet watched uses w ∧ c.Proper watched w ∧ Scoped (c.run w) rest

variable {watched uses} {w : World η τ} {program more : List (Cmd η τ)} {c : Cmd η τ} {t : τ}
  {h : η}

@[simp] theorem scoped_cons :
    Scoped watched uses w (c :: program) ↔
      Quiet watched uses w ∧ c.Proper watched w ∧ Scoped watched uses (c.run w) program :=
  Iff.rfl

theorem Scoped.quiet (hs : Scoped watched uses w program) : Quiet watched uses w := by
  cases program with
  | nil => exact hs
  | cons c rest => exact hs.1

/-- **The interleavings.** They all obey the law exactly when the main program is scoped. -/
theorem forall_eachStep_law_iff :
    (∀ es, EachStep step (Law watched uses) (program, w) es) ↔ Scoped watched uses w program := by
  constructor
  · intro hall
    induction program generalizing w with
    | nil => exact fun t h => (eachStep_cons.mp (hall [.thread t h])).1
    | cons c rest ih =>
      refine ⟨fun t h => (eachStep_cons.mp (hall [.thread t h])).1, ?_, ih fun es => ?_⟩
      · exact (eachStep_cons.mp (hall [.main])).1 c rfl
      · exact (eachStep_cons.mp (hall (.main :: es))).2
  · intro hs es
    induction es generalizing w program with
    | nil => exact eachStep_nil
    | cons e es ih =>
      rw [eachStep_cons]
      cases e with
      | thread t h => exact ⟨hs.quiet t h, ih hs⟩
      | main =>
        cases program with
        | nil => exact ⟨fun c hc => (by cases hc), ih hs⟩
        | cons c rest =>
          refine ⟨fun c' hc' => ?_, ih hs.2.2⟩
          obtain rfl := Option.some.inj hc'
          exact hs.2.1

theorem runs_append : runs w (program ++ more) = runs (runs w program) more := after_append

theorem scoped_append :
    Scoped watched uses w (program ++ more) ↔
      Scoped watched uses w program ∧ Scoped watched uses (runs w program) more := by
  induction program generalizing w with
  | nil => exact ⟨fun hs => ⟨hs.quiet, hs⟩, And.right⟩
  | cons c rest ih => simp only [List.cons_append, scoped_cons, ih, after_cons, and_assoc]

/-! ### Programs that release nothing -/

/-- Such a program is scoped, and a thread runs after it if it did before or was started. -/
theorem scoped_of_keeps (hw : w.Unreleased) (hkeeps : Keeps program) :
    Scoped watched uses w program ∧ (runs w program).Unreleased ∧
      ∀ t, (runs w program).running t = true ↔ w.running t = true ∨ .spawn t ∈ program := by
  induction program generalizing w with
  | nil => exact ⟨hw.quiet, hw, by simp⟩
  | cons c rest ih =>
    obtain ⟨hrelease, hjoin⟩ := hkeeps
    have hrest : Keeps rest := ⟨fun h hmem => hrelease h (List.mem_cons_of_mem _ hmem),
      fun t hmem => hjoin t (List.mem_cons_of_mem _ hmem)⟩
    cases c with
    | op o =>
      cases o with
      | acquire h =>
        have hnext : (Cmd.run w (.op (.acquire h))).Unreleased := by
          intro h'
          simp only [Cmd.run, apply_acquire, Function.update_apply]
          split_ifs
          · simp
          · exact hw h'
        obtain ⟨hscoped, hunreleased, hrunning⟩ := ih hnext hrest
        refine ⟨⟨hw.quiet, fun _ => trivial, hscoped⟩, hunreleased,
          fun t => (hrunning t).trans ?_⟩
        simp [Cmd.run]
      | use h =>
        obtain ⟨hscoped, hunreleased, hrunning⟩ := ih (w := Cmd.run w (.op (.use h))) hw hrest
        refine ⟨⟨hw.quiet, fun _ => hw h, hscoped⟩, hunreleased,
          fun t => (hrunning t).trans ?_⟩
        simp [Cmd.run]
      | release h => exact absurd List.mem_cons_self (hrelease h)
    | spawn thread =>
      obtain ⟨hscoped, hunreleased, hrunning⟩ := ih (w := Cmd.run w (.spawn thread)) hw hrest
      refine ⟨⟨hw.quiet, trivial, hscoped⟩, hunreleased, fun t => (hrunning t).trans ?_⟩
      by_cases ht : t = thread <;> simp [Cmd.run, ht]
    | join thread => exact absurd List.mem_cons_self (hjoin thread)

/-- What is held was acquired. -/
theorem acquire_mem_of_held (hheld : (runs w program).table h = .held ()) :
    w.table h = .held () ∨ .op (.acquire h) ∈ program := by
  induction program generalizing w with
  | nil => exact .inl hheld
  | cons c rest ih =>
    rcases ih hheld with hheld | hmem
    · cases c with
      | op o =>
        cases o with
        | acquire h' =>
          simp only [Cmd.run, apply_acquire, Function.update_apply] at hheld
          split_ifs at hheld with heq
          · exact .inr (by simp [heq])
          · exact .inl hheld
        | use h' => exact .inl hheld
        | release h' =>
          simp only [Cmd.run, apply_release, Function.update_apply] at hheld
          split_ifs at hheld
          exact .inl hheld
      | spawn t => exact .inl hheld
      | join t => exact .inl hheld
    · exact .inr (List.mem_cons_of_mem _ hmem)

/-! ### Programs that wind up -/

/-- The command starts nothing. -/
def Cmd.Ends : Cmd η τ → Prop
  | .op (.acquire _) => False
  | .spawn _ => False
  | _ => True

/-- The commands use and release what is not yet released, and release what was given to no thread
that was started and not joined. -/
def Winds (watched : η → Prop) (uses : τ → η → Prop) (started : τ → Prop) :
    List τ → List η → List (Cmd η τ) → Prop
  | joined, gone, .op (.use h) :: rest =>
    (watched h → h ∉ gone) ∧ Winds watched uses started joined gone rest
  | joined, gone, .op (.release h) :: rest =>
    (watched h → h ∉ gone) ∧ (∀ t, started t → t ∉ joined → uses t h → ¬ watched h) ∧
      Winds watched uses started joined (h :: gone) rest
  | joined, gone, .join t :: rest => Winds watched uses started (t :: joined) gone rest
  | _, _, _ => True

/-- What was released stays so. -/
theorem table_runs_of_ends (hends : ∀ c ∈ program, c.Ends) :
    (runs w program).table h
      = if .op (.release h) ∈ program then .released else w.table h := by
  induction program generalizing w with
  | nil => rfl
  | cons c rest ih =>
    obtain ⟨hc, hrest⟩ := List.forall_mem_cons.mp hends
    refine (ih (w := c.run w) hrest).trans ?_
    cases c with
    | op o =>
      cases o with
      | acquire h' => exact hc.elim
      | use h' => simp [Cmd.run, Op.apply]
      | release h' => by_cases heq : h = h' <;> simp [Cmd.run, heq]
    | spawn t => exact hc.elim
    | join t => simp [Cmd.run]

section Winding

variable {started : τ → Prop} {joined : List τ} {gone : List η}

/-- A release adds to what is released. -/
theorem released_release_iff (hgone : ∀ h, w.table h = .released ↔ h ∈ gone) (h' : η) :
    (Cmd.run w (.op (.release h))).table h' = .released ↔ h' ∈ h :: gone := by
  simp only [Cmd.run, apply_release, Function.update_apply, List.mem_cons]
  split_ifs with heq
  · simp [heq]
  · simp [heq, hgone]

/-- A join ends its thread alone. -/
theorem running_join_iff (hrunning : ∀ t, w.running t = true ↔ started t ∧ t ∉ joined) (t' : τ) :
    (Cmd.run w (.join t)).running t' = true ↔ started t' ∧ t' ∉ t :: joined := by
  simp only [Cmd.run, Function.update_apply, List.mem_cons, not_or]
  split_ifs with heq
  · simp [heq]
  · simp [heq, hrunning]

/-- **A release is quiet when no thread that runs uses the handle.** -/
theorem quiet_release_iff (hquiet : Quiet watched uses w) :
    Quiet watched uses (Cmd.run w (.op (.release h))) ↔
      ∀ t, w.running t = true → uses t h → ¬ watched h := by
  have htable : ∀ h', (Cmd.run w (.op (.release h))).table h' = .released ↔
      h' = h ∨ w.table h' = .released := by
    intro h'
    simp only [Cmd.run, apply_release, Function.update_apply]
    split_ifs with heq
    · simp [heq]
    · simp [heq]
  constructor
  · intro hq t hrun huses hwatched
    exact hq t h hrun huses hwatched ((htable h).mpr (.inl rfl))
  · intro hfree t h' hrun huses hwatched
    rw [ne_eq, htable, not_or]
    refine ⟨?_, hquiet t h' hrun huses hwatched⟩
    rintro rfl
    exact hfree t hrun huses hwatched

theorem quiet_join (hquiet : Quiet watched uses w) :
    Quiet watched uses (Cmd.run w (.join t)) := by
  intro t' h' hrun
  refine hquiet t' h' ?_
  simp only [Cmd.run, Function.update_apply] at hrun
  split_ifs at hrun
  exact hrun

/-- **Winding up.** A program that starts nothing is scoped exactly when it winds up what is left of
the handles and the threads. -/
theorem scoped_iff_winds (hquiet : Quiet watched uses w)
    (hrunning : ∀ t, w.running t = true ↔ started t ∧ t ∉ joined)
    (hgone : ∀ h, w.table h = .released ↔ h ∈ gone) (hends : ∀ c ∈ program, c.Ends) :
    Scoped watched uses w program ↔ Winds watched uses started joined gone program := by
  induction program generalizing w joined gone with
  | nil => exact iff_of_true hquiet trivial
  | cons c rest ih =>
    obtain ⟨hc, hrest⟩ := List.forall_mem_cons.mp hends
    rw [scoped_cons, and_iff_right hquiet]
    cases c with
    | op o =>
      cases o with
      | acquire h => exact hc.elim
      | use h =>
        rw [Winds]
        exact and_congr (imp_congr_right fun _ => not_congr (hgone h))
          (ih hquiet hrunning hgone hrest)
      | release h =>
        have hnext := released_release_iff (h := h) hgone
        have hkept : Quiet watched uses (Cmd.run w (.op (.release h))) ↔
            ∀ t, started t → t ∉ joined → uses t h → ¬ watched h := by
          rw [quiet_release_iff hquiet]
          exact forall_congr' fun t => by rw [hrunning, and_imp]
        rw [Winds]
        refine and_congr (imp_congr_right fun _ => not_congr (hgone h))
          ⟨fun hs => ?_, fun hs => ?_⟩
        · exact ⟨hkept.mp hs.quiet, (ih hs.quiet hrunning hnext hrest).mp hs⟩
        · exact (ih (hkept.mpr hs.1) hrunning hnext hrest).mpr hs.2
    | spawn t => exact hc.elim
    | join t =>
      rw [Winds, ← ih (quiet_join hquiet) (running_join_iff hrunning) hgone hrest]
      exact and_iff_right trivial

end Winding

end ThreadScopes
