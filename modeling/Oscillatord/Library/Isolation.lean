import Oscillatord.Library.Runs

/-!
# What a call shows of the earlier ones

A component takes commands, each of which meets something outside: the state after a command
depends on the state before it and on what it meets, and so does what the command shows. A command
is *isolated* when it shows the same after any two histories of the same commands, whatever these
have met. This is a property of pairs of runs; it is a property of single states once the states
that histories of those commands reach are known (`isolated_iff`).

Two rules say which these are. What the start has and every command keeps holds of them
(`Reached.induction`). And a state that is reached stays reached over commands that may meet
something that leaves it alone (`Reached.append`).
-/

namespace Isolation

open StepRun

variable {σ κ μ ω : Type*} (step : σ → κ × μ → σ) (out : σ → κ × μ → ω) (start : σ)

/-- Some history of the commands ends in the state. -/
def Reached (cmds : List κ) (s : σ) : Prop :=
  ∃ history : List (κ × μ), history.map Prod.fst = cmds ∧ after step start history = s

/-- After any two histories of the commands, the call shows the same. -/
def Isolated (cmds : List κ) (call : κ × μ) : Prop :=
  ∀ history history' : List (κ × μ),
    history.map Prod.fst = cmds → history'.map Prod.fst = cmds →
      out (after step start history) call = out (after step start history') call

variable {step out start} {cmds more : List κ} {call : κ × μ} {s : σ}

theorem isolated_iff : Isolated step out start cmds call ↔
    ∀ s s', Reached step start cmds s → Reached step start cmds s' → out s call = out s' call := by
  constructor
  · rintro h _ _ ⟨history, hcmds, rfl⟩ ⟨history', hcmds', rfl⟩
    exact h history history' hcmds hcmds'
  · intro h history history' hcmds hcmds'
    exact h _ _ ⟨history, hcmds, rfl⟩ ⟨history', hcmds', rfl⟩

/-- Without earlier commands there is one history. -/
theorem isolated_nil : Isolated step out start [] call := by
  intro history history' hcmds hcmds'
  rw [List.map_eq_nil_iff.mp hcmds, List.map_eq_nil_iff.mp hcmds']

/-- **The invariant rule.** -/
theorem Reached.induction (J : σ → Prop) (hstart : J start)
    (hstep : ∀ s, ∀ cmd ∈ cmds, ∀ met, J s → J (step s (cmd, met)))
    (h : Reached step start cmds s) : J s := by
  obtain ⟨history, rfl, rfl⟩ := h
  refine throughout_of_eachStep (C := fun _ e => e ∈ history) hstart ?_ ?_ |>.last
  · rintro s ⟨cmd, met⟩ hs hmem
    exact hstep s cmd (List.mem_map_of_mem hmem) met hs
  · intro pre e hpre
    exact hpre.subset (by simp)

/-- One more command. -/
theorem Reached.concat (h : Reached step start cmds s) (cmd : κ) (met : μ) :
    Reached step start (cmds ++ [cmd]) (step s (cmd, met)) := by
  obtain ⟨history, rfl, rfl⟩ := h
  exact ⟨history ++ [(cmd, met)], by simp, by simp⟩

/-- More commands, all of which meet something that leaves the state alone. -/
theorem Reached.append (h : Reached step start cmds s) {met : μ}
    (hkept : ∀ cmd ∈ more, step s (cmd, met) = s) : Reached step start (cmds ++ more) s := by
  induction more generalizing cmds with
  | nil => rwa [List.append_nil]
  | cons cmd more ih =>
    have hfirst := h.concat cmd met
    rw [hkept cmd List.mem_cons_self] at hfirst
    rw [List.append_cons]
    exact ih hfirst fun cmd' hcmd' => hkept cmd' (List.mem_cons_of_mem _ hcmd')

/-- The state before the first command. -/
theorem reached_start : Reached step start ([] : List κ) start := ⟨[], rfl, rfl⟩

/-- Some state is reached. -/
theorem exists_reached (step : σ → κ × μ → σ) (start : σ) (cmds : List κ) (met : μ) :
    ∃ s, Reached step start cmds s :=
  ⟨_, cmds.map fun cmd => (cmd, met), by simp [Function.comp_def], rfl⟩

end Isolation
