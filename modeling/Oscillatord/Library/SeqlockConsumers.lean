import Oscillatord.Library.Seqlock

/-!
# Readers that consume

A reader that clears the flag before it looks at the counter again (`Consumer`) consumes what it
reads. It accepts no more copies than there were updates finished, whatever the other readers do
(`accepted_le`): each copy has its claim to an update (`Reader.claims`). Of the copies it takes with
the counter standing still from its look at the flag, no two are of one version, and they are taken
in the order of their updates (`taken_decreasing`).
-/

namespace Seqlock

open StepRun

universe u v w z

variable {κ : Type u} {α : κ → Type v} {γ : Type w} {ι : Type z}

/-! ### Claims -/

section Claims

variable {i : ι}

/-- The copy is complete, and the flag not cleared. -/
def Reader.copied? : Reader γ α → Bool
  | .copying _ _ _ _ [] => true
  | _ => false

/-- The reader clears the flag before it looks at the counter again. -/
def Consumer [DecidableEq ι] (i : ι) (s : System γ α ι) : Event α ι → Prop
  | .closes i' => i' = i → (s.reader i').copied? = false
  | _ => True

instance [DecidableEq ι] (i : ι) (s : System γ α ι) : ∀ e, Decidable (Consumer i s e)
  | .closes i' => inferInstanceAs (Decidable (i' = i → (s.reader i').copied? = false))
  | .begins .. => isTrue trivial
  | .stores => isTrue trivial
  | .looks _ => isTrue trivial
  | .opens .. => isTrue trivial
  | .copies _ => isTrue trivial
  | .consumes _ => isTrue trivial

/-- The finished updates that a reader has a claim to: one that it is about to use, and one that the
flag shows once this is another one. -/
def Reader.claims (valid : Bool) : Reader γ α → ℕ
  | .idle => valid.toNat
  | .ready _ => 1
  | .copying .. => 1
  | .cleared .. => 1 + valid.toNat

/-- The copies a reader has accepted. -/
def System.accepted [DecidableEq ι] (s : System γ α ι) (i : ι) : ℕ :=
  s.reads.countP fun r => decide (r.reader = i)

/-- The copies accepted and the claims, against the updates finished. -/
def ConsumerInv [DecidableEq ι] (i : ι) (shown : ℕ) (s : System γ α ι) : Prop :=
  s.accepted i + (s.reader i).claims s.cell.valid ≤ s.finished + shown

variable {s : System γ α ι} {shown : ℕ}

theorem Reader.claims_false_le (valid : Bool) (r : Reader γ α) :
    r.claims false ≤ r.claims valid := by
  cases r with
  | idle | cleared => simp [Reader.claims]
  | ready | copying => exact le_rfl

theorem Reader.claims_le (valid : Bool) (r : Reader γ α) : r.claims true ≤ r.claims valid + 1 := by
  cases r with
  | idle => simp [Reader.claims]
  | ready | copying => exact Nat.le_succ _
  | cleared =>
    simp only [Reader.claims, Bool.toNat_true]
    omega

@[simp] theorem Reader.claims_opened (valid : Bool) (cell : Cell γ α) (ticks : ℕ) (order : Sweep κ)
    (r : Reader γ α) : (r.opened cell ticks order).claims valid = r.claims valid := by
  cases r <;> rfl

@[simp] theorem Reader.claims_copied [DecidableEq κ] (valid : Bool) (cell : Cell γ α)
    (r : Reader γ α) : (r.copied cell).claims valid = r.claims valid := by
  rcases r with _ | _ | ⟨_, _, _, _, _ | _⟩ | _ <;> rfl

variable [DecidableEq ι]

/-- A reader with the same claims takes the place of another. -/
theorem ConsumerInv.setReader (h : ConsumerInv i shown s) {i' : ι} {r : Reader γ α}
    (hr : r.claims s.cell.valid = (s.reader i').claims s.cell.valid) :
    ConsumerInv i shown { s with reader := Function.update s.reader i' r } := by
  have hclaims : (Function.update s.reader i' r i).claims s.cell.valid
      = (s.reader i).claims s.cell.valid := by
    by_cases hi : i = i'
    · subst hi
      rw [Function.update_self, hr]
    · rw [Function.update_of_ne hi]
  exact (Nat.add_le_add_left hclaims.le _).trans h

variable [DecidableEq γ]

/-- The second look of a reader that has cleared the flag, or of another one. -/
theorem ConsumerInv.close (h : ConsumerInv i shown s) {i' : ι} {seen : ℕ} {count : γ} {first : ℕ}
    {copy : ∀ w, Option (α w)} (hi' : i = i' → s.reader i' = .cleared seen count first copy) :
    ConsumerInv i shown (s.close i' seen count first copy) := by
  by_cases hi : i = i'
  · subst hi
    simp only [ConsumerInv, hi' rfl, Reader.claims, System.accepted] at h
    simp only [ConsumerInv, System.accepted, System.close, Function.update_self, Reader.claims]
    split_ifs
    · rw [List.countP_cons_of_pos (by simp)]
      omega
    · omega
  · simp only [ConsumerInv, System.accepted, System.close, Function.update_of_ne hi] at h ⊢
    split_ifs
    · rwa [List.countP_cons_of_neg (by simp [Ne.symm hi])]
    · exact h

variable [DecidableEq κ] {tick : γ → γ}

/-- One access, with a reader that clears the flag each time. -/
theorem ConsumerInv.step (h : ConsumerInv i shown s) {e : Event α ι} (he : Consumer i s e) :
    ConsumerInv i shown (step tick s e) := by
  cases e with
  | begins record order =>
    rcases hwriter : s.writer with _ | ⟨store, rest⟩ <;> simp only [Seqlock.step, hwriter]
    · exact h
    · exact h
  | stores =>
    rcases hwriter : s.writer with _ | ⟨store, rest⟩ <;> simp only [Seqlock.step, hwriter]
    · exact h
    · cases store with
      | valid v =>
        have hle : (s.reader i).claims v ≤ (s.reader i).claims s.cell.valid + v.toNat := by
          cases v with
          | false => exact Reader.claims_false_le ..
          | true => exact Reader.claims_le ..
        have hfinished : (Store.valid v : Store α).finished = v.toNat := by cases v <;> rfl
        rw [ConsumerInv, System.accepted] at h ⊢
        simp only [Store.apply, hfinished]
        omega
      | tick => exact h
      | word => exact h
  | looks i' =>
    rcases hi : s.reader i' with _ | _ | _ | _ <;> simp only [Seqlock.step, hi]
    · split_ifs with hvalid
      · refine h.setReader ?_
        rw [hi, hvalid]
        rfl
      · exact h
    all_goals exact h
  | opens i' order => exact h.setReader (Reader.claims_opened ..)
  | copies i' => exact h.setReader (Reader.claims_copied ..)
  | consumes i' =>
    rcases hi : s.reader i' with _ | _ | ⟨seen, count, first, copy, _ | _⟩ | _ <;>
      simp only [Seqlock.step, hi]
    · exact h
    · exact h
    · have hclear : ConsumerInv i shown { s with cell := { s.cell with valid := false } } :=
        (Nat.add_le_add_left (Reader.claims_false_le ..) _).trans h
      refine hclear.setReader ?_
      rw [hi]
      rfl
    · exact h
    · exact h
  | closes i' =>
    rcases hi : s.reader i' with _ | _ | ⟨seen, count, first, copy, _ | _⟩ |
      ⟨seen, count, first, copy⟩ <;> simp only [Seqlock.step, hi]
    · exact h
    · exact h
    · refine h.close fun heq => ?_
      subst heq
      have hcopied := he rfl
      rw [hi] at hcopied
      cases hcopied
    · exact h
    · exact h.close fun _ => hi

/-- **A consumer invents nothing.** In every interleaving with any other readers, a reader that
clears the flag each time accepts no more copies than there were updates finished, and one more if
the flag was set to begin with. -/
theorem accepted_le (cell : Cell γ α) {es : List (Event α ι)}
    (h : EachStep (step tick) (Consumer i) (System.start cell) es) :
    (after (step tick) (System.start cell) es).accepted i
      ≤ (after (step tick) (System.start cell) es).finished + cell.valid.toNat := by
  have hstart : ConsumerInv i cell.valid.toNat (System.start cell : System γ α ι) := by
    simp [ConsumerInv, System.accepted, System.start, Reader.claims]
  have hrun := (throughout_of_eachStep hstart (fun _ _ hs he => hs.step he) h).last
  exact (Nat.le_add_right _ _).trans hrun

end Claims

/-! ### What a consumer takes -/

section Taken

/-- The flag is set, or is about to be. -/
def System.Shown (s : System γ α ι) : Prop := s.cell.valid = true ∨ s.writer = [.valid true]

/-- After how many ticks a reader looked at the flag. -/
def Reader.seen? : Reader γ α → Option ℕ
  | .idle => none
  | .ready seen => some seen
  | .copying seen .. => some seen
  | .cleared seen .. => some seen

/-- The same, once it has cleared the flag. -/
def Reader.cleared? : Reader γ α → Option ℕ
  | .cleared seen .. => some seen
  | _ => none

theorem Reader.seen?_of_cleared? {r : Reader γ α} {seen : ℕ} (h : seen ∈ r.cleared?) :
    seen ∈ r.seen? := by
  cases r with
  | cleared => exact h
  | idle | ready | copying => cases h

@[simp] theorem Reader.seen?_opened (cell : Cell γ α) (ticks : ℕ) (order : Sweep κ)
    (r : Reader γ α) : (r.opened cell ticks order).seen? = r.seen? := by cases r <;> rfl

@[simp] theorem Reader.cleared?_opened (cell : Cell γ α) (ticks : ℕ) (order : Sweep κ)
    (r : Reader γ α) : (r.opened cell ticks order).cleared? = r.cleared? := by cases r <;> rfl

@[simp] theorem Reader.seen?_copied [DecidableEq κ] (cell : Cell γ α) (r : Reader γ α) :
    (r.copied cell).seen? = r.seen? := by rcases r with _ | _ | ⟨_, _, _, _, _ | _⟩ | _ <;> rfl

@[simp] theorem Reader.cleared?_copied [DecidableEq κ] (cell : Cell γ α) (r : Reader γ α) :
    (r.copied cell).cleared? = r.cleared? := by
  rcases r with _ | _ | ⟨_, _, _, _, _ | _⟩ | _ <;> rfl

theorem ReaderInv.seen_le {tick : γ → γ} {count₀ : γ} {ticks seen : ℕ}
    {versions : List (∀ w, α w)} {r : Reader γ α} (h : ReaderInv tick count₀ ticks versions r)
    (hseen : seen ∈ r.seen?) : seen ≤ ticks := by
  cases r with
  | idle => cases hseen
  | ready seen => exact Option.some.inj hseen ▸ h.2
  | copying | cleared =>
    exact Option.some.inj hseen ▸ (CopyInv.seen_le h).trans (CopyInv.first_le h)

variable [DecidableEq ι] {s : System γ α ι} {i : ι}

/-- The ticks at which a reader took a version, the latest first. -/
def System.taken (s : System γ α ι) (i : ι) : List ℕ :=
  (s.reads.filter fun r => decide (r.reader = i ∧ r.first = r.seen)).map Read.first

/-- A version is taken between two updates. -/
theorem Inv.taken_even {tick : γ → γ} {count₀ : γ} (h : Inv tick count₀ s) :
    ∀ n ∈ s.taken i, n % 2 = 0 := by
  intro n hn
  obtain ⟨r, hr, rfl⟩ := List.mem_map.mp hn
  obtain ⟨hr, htake⟩ := List.mem_filter.mp hr
  rw [(decide_eq_true_iff.mp htake).2]
  exact (h.reads r hr).seen_even

/-- What is taken is older than what the flag shows, and than what the reader is at. -/
structure TakenInv (i : ι) (s : System γ α ι) : Prop where
  le : ∀ n ∈ s.taken i, n ≤ s.ticks
  lt : s.Shown → ∀ n ∈ s.taken i, n < s.ticks
  seen : ∀ seen ∈ (s.reader i).seen?, (∀ n ∈ s.taken i, n < seen) ∧
    (s.writer = [.valid true] → seen < s.ticks)
  cleared : ∀ seen ∈ (s.reader i).cleared?, s.cell.valid = true → seen < s.ticks
  decreasing : (s.taken i).Pairwise (· > ·)

/-- A reader that stays at its place does not matter. -/
theorem TakenInv.setReader (h : TakenInv i s) {i' : ι} {r : Reader γ α}
    (hseen : r.seen? = (s.reader i').seen?) (hcleared : r.cleared? = (s.reader i').cleared?) :
    TakenInv i { s with reader := Function.update s.reader i' r } := by
  by_cases hi : i = i'
  · subst hi
    refine { h with seen := ?_, cleared := ?_ }
    · simp only [Function.update_self, hseen]
      exact h.seen
    · simp only [Function.update_self, hcleared]
      exact h.cleared
  · refine { h with seen := ?_, cleared := ?_ }
    · simp only [Function.update_of_ne hi]
      exact h.seen
    · simp only [Function.update_of_ne hi]
      exact h.cleared

/-- Nor does another reader. -/
theorem TakenInv.setOther (h : TakenInv i s) {i' : ι} (hi : i ≠ i') (r : Reader γ α) :
    TakenInv i { s with reader := Function.update s.reader i' r } := by
  refine { h with seen := ?_, cleared := ?_ } <;> simp only [Function.update_of_ne hi]
  · exact h.seen
  · exact h.cleared

/-- The flag is cleared. -/
theorem TakenInv.clear (h : TakenInv i s) :
    TakenInv i { s with cell := { s.cell with valid := false } } where
  le := h.le
  lt := fun hshown => h.lt (hshown.imp (fun hfalse => by cases hfalse) id)
  seen := h.seen
  cleared := fun _ _ hfalse => by cases hfalse
  decreasing := h.decreasing

variable [DecidableEq γ]

theorem taken_close (s : System γ α ι) (i i' : ι) (seen : ℕ) (count : γ) (first : ℕ)
    (copy : ∀ w, Option (α w)) :
    (s.close i' seen count first copy).taken i
      = if count = s.cell.count ∧ i' = i ∧ first = seen then first :: s.taken i
        else s.taken i := by
  simp only [System.taken, System.close]
  split_ifs with hcount htake htake
  · rw [List.filter_cons_of_pos (by simpa using htake.2), List.map_cons]
  · rw [List.filter_cons_of_neg (by simpa [hcount] using htake)]
  · exact absurd htake.1 hcount
  · rfl

variable {tick : γ → γ} {count₀ : γ}

/-- The second look at the counter of a reader that has cleared the flag. -/
theorem TakenInv.close (h : TakenInv i s) (hinv : Inv tick count₀ s) {seen : ℕ} {count : γ}
    {first : ℕ} {copy : ∀ w, Option (α w)} (hi : s.reader i = .cleared seen count first copy) :
    TakenInv i (s.close i seen count first copy) := by
  have hseen := h.seen seen (by rw [hi]; rfl)
  have hcleared := h.cleared seen (by rw [hi]; rfl)
  have hle : seen ≤ s.ticks := (hinv.readers i).seen_le (by rw [hi]; rfl)
  have hlt : s.Shown → seen < s.ticks := fun hshown => hshown.elim hcleared hseen.2
  have htaken : ∀ n ∈ (s.close i seen count first copy).taken i, n ∈ s.taken i ∨ n = seen := by
    intro n hn
    rw [taken_close] at hn
    split_ifs at hn with htake
    · rcases List.mem_cons.mp hn with rfl | hn
      · exact .inr htake.2.2
      · exact .inl hn
    · exact .inl hn
  have hidle : (s.close i seen count first copy).reader i = .idle := Function.update_self ..
  refine
    { le := fun n hn => ?_, lt := fun hshown n hn => ?_, seen := ?_, cleared := ?_
      decreasing := ?_ }
  · rcases htaken n hn with hn | rfl
    · exact h.le n hn
    · exact hle
  · rcases htaken n hn with hn | rfl
    · exact h.lt hshown n hn
    · exact hlt hshown
  · rw [hidle]
    exact fun _ hnone => by cases hnone
  · rw [hidle]
    exact fun _ hnone => by cases hnone
  · rw [taken_close]
    split_ifs with htake
    · rw [htake.2.2]
      exact List.pairwise_cons.mpr ⟨hseen.1, h.decreasing⟩
    · exact h.decreasing

/-- Or of another one. -/
theorem TakenInv.closeOther (h : TakenInv i s) {i' : ι} (hi : i' ≠ i) (seen : ℕ) (count : γ)
    (first : ℕ) (copy : ∀ w, Option (α w)) :
    TakenInv i (s.close i' seen count first copy) := by
  have htaken : (s.close i' seen count first copy).taken i = s.taken i := by
    rw [taken_close, if_neg fun htake => hi htake.2.1]
  have hother := h.setOther hi.symm .idle
  exact
    { le := htaken ▸ hother.le, lt := htaken ▸ hother.lt, seen := htaken ▸ hother.seen
      cleared := hother.cleared, decreasing := htaken ▸ hother.decreasing }

variable [DecidableEq κ]

/-- A store. -/
theorem TakenInv.stores (h : TakenInv i s) (hinv : Inv tick count₀ s) :
    TakenInv i (step tick s .stores) := by
  have hwriter := hinv.writer
  rcases htodo : s.writer with _ | ⟨store, rest⟩ <;> simp only [step, htodo]
  · exact h
  rw [htodo] at hwriter
  have hreader := hinv.readers i
  -- whatever may be shown now is of a tick just made, or was about to be shown before
  have hshown : (store.apply tick s.cell).valid = true ∨ rest = [.valid true] →
      store.ticks = 1 ∨ store :: rest = [.valid true] := hwriter.tick_of_shown
  have hseen : ∀ seen ∈ (s.reader i).seen?,
      (store.apply tick s.cell).valid = true ∨ rest = [.valid true] →
      seen < s.ticks + store.ticks := by
    intro seen hmem hnow
    have hle := hreader.seen_le hmem
    rcases hshown hnow with htick | hbefore
    · omega
    · have hlt := (h.seen seen hmem).2 (htodo.trans hbefore)
      omega
  refine
    { le := fun n hn => (h.le n hn).trans (Nat.le_add_right _ _), lt := fun hnow n hn => ?_
      seen := fun seen hmem => ⟨(h.seen seen hmem).1, fun hrest => hseen seen hmem (.inr hrest)⟩
      cleared := fun seen hmem hvalid =>
        hseen seen (Reader.seen?_of_cleared? hmem) (.inl hvalid)
      decreasing := h.decreasing }
  have hle := h.le n hn
  rcases hshown hnow with htick | hbefore
  · simp only
    omega
  · have hlt := h.lt (.inr (htodo.trans hbefore)) n hn
    simp only
    omega

/-- One access, with a reader that clears the flag each time. -/
theorem TakenInv.step (h : TakenInv i s) (hinv : Inv tick count₀ s) {e : Event α ι}
    (he : Consumer i s e) : TakenInv i (step tick s e) := by
  cases e with
  | begins record order =>
    rcases hwriter : s.writer with _ | ⟨store, rest⟩ <;> simp only [Seqlock.step, hwriter]
    · refine
        { h with
          lt := fun hshown => h.lt (.inl (hshown.elim id fun hupdate => ?_))
          seen := fun seen hmem => ⟨(h.seen seen hmem).1, fun hupdate => ?_⟩ }
      all_goals cases (List.cons.inj hupdate).1
    · exact h
  | stores => exact h.stores hinv
  | looks i' =>
    rcases hi : s.reader i' with _ | _ | _ | _ <;> simp only [Seqlock.step, hi]
    · split_ifs with hvalid
      · by_cases hii' : i = i'
        · subst hii'
          refine { h with seen := ?_, cleared := ?_ } <;> simp only [Function.update_self]
          · intro seen hmem
            obtain rfl := Option.some.inj hmem
            refine ⟨h.lt (.inl hvalid), fun hwriter => ?_⟩
            have hnot := hinv.writer
            rw [hwriter, hvalid] at hnot
            exact hnot.not_shown.elim
          · exact fun _ hnone => by cases hnone
        · exact h.setOther hii' _
      · exact h
    all_goals exact h
  | opens i' order => exact h.setReader (Reader.seen?_opened ..) (Reader.cleared?_opened ..)
  | copies i' => exact h.setReader (Reader.seen?_copied ..) (Reader.cleared?_copied ..)
  | consumes i' =>
    rcases hi : s.reader i' with _ | _ | ⟨seen, count, first, copy, _ | _⟩ | _ <;>
      simp only [Seqlock.step, hi]
    · exact h
    · exact h
    · by_cases hii' : i = i'
      · subst hii'
        have hclear := h.clear
        refine { hclear with seen := ?_, cleared := ?_ } <;> simp only [Function.update_self]
        · have hseen := h.seen
          rw [hi] at hseen
          exact hseen
        · exact fun _ _ hfalse => by cases hfalse
      · exact h.clear.setOther hii' _
    · exact h
    · exact h
  | closes i' =>
    rcases hi : s.reader i' with _ | _ | ⟨seen, count, first, copy, _ | _⟩ |
      ⟨seen, count, first, copy⟩ <;> simp only [Seqlock.step, hi]
    · exact h
    · exact h
    · refine h.closeOther (fun heq => ?_) ..
      subst heq
      have hcopied := he rfl
      rw [hi] at hcopied
      cases hcopied
    · exact h
    · by_cases hii' : i' = i
      · subst hii'
        exact h.close hinv hi
      · exact h.closeOther hii' ..

/-- **A consumer takes no version twice**, and takes them in their order: the numbers of those that
it takes, with the counter standing still from its look at the flag, go up. -/
theorem taken_decreasing (cell : Cell γ α) {es : List (Event α ι)}
    (h : EachStep (step tick) (Consumer i) (System.start cell) es) :
    (((after (step tick) (System.start cell) es).taken i).map (· / 2)).Pairwise (· > ·) := by
  have hstart : TakenInv i (System.start cell : System γ α ι) :=
    { le := fun _ hn => absurd hn List.not_mem_nil
      lt := fun _ _ hn => absurd hn List.not_mem_nil
      seen := fun _ hnone => by cases hnone
      cleared := fun _ hnone => by cases hnone
      decreasing := List.Pairwise.nil }
  have hrun := (throughout_of_eachStep
    (P := fun s : System γ α ι => Inv tick cell.count s ∧ TakenInv i s) ⟨inv_start cell, hstart⟩
    (fun s e hs he => ⟨hs.1.step e, hs.2.step hs.1 he⟩) h).last
  refine List.pairwise_map.mpr (hrun.2.decreasing.imp_of_mem fun {n m} hn hm hlt => ?_)
  have hneven := hrun.1.taken_even n hn
  have hmeven := hrun.1.taken_even m hm
  omega

end Taken

end Seqlock
