import Mathlib.Algebra.GroupWithZero.Nat
import Mathlib.Data.List.Basic
import Mathlib.Logic.Function.Basic
import Mathlib.Logic.Function.Iterate
import Mathlib.Tactic.Common
import Oscillatord.Library.Runs

/-!
# Records that are read while they are written

One writer and any number of readers share a record of several words, and only the access to one
word is atomic. The writer counts: it brings a counter up before its stores and again after them,
so that a reader that finds the same counter before and after its copy was not overtaken. A flag
tells the readers that there is a record to use; a reader may clear it, and then consumes the
record.

`System` is the memory with the stores the writer has left to do and the readers at their places;
`step` lets any of them make one access. The order in which the words are stored, and the order in
which a reader copies them, is any that leaves none out (`Sweep`). Three things are observed along:
how often the counter was brought up, the records in the order of their updates (`versions`), and
the copies that were accepted (`reads`).

An accepted copy whose two looks at the counter fall between the same ticks is taken from the
version of that moment, word by word; when an update is in progress there, from that version or
the next one (`Read.Genuine`). It is one version (`Read.Exact`) when none is, and so it is when the
counter did not move between the look at the flag and the first look at the counter (`accepted`).
-/

namespace Seqlock

open StepRun

universe u v w z

variable {κ : Type u} {α : κ → Type v} {γ : Type w} {ι : Type z}

/-- All words of a record, in some order. -/
structure Sweep (κ : Type u) where
  words : List κ
  complete : ∀ w, w ∈ words

/-- One store of the writer. -/
inductive Store (α : κ → Type v)
  | valid (v : Bool)
  | tick
  | word (w : κ) (x : α w)

/-- The memory that is shared. -/
structure Cell (γ : Type w) (α : κ → Type v) where
  valid : Bool
  count : γ
  word : ∀ w, α w

/-- The words of a record, stored in this order. -/
def wordStores (record : ∀ w, α w) (words : List κ) : List (Store α) :=
  words.map fun w => .word w (record w)

/-- The stores of an update. -/
def update (record : ∀ w, α w) (order : Sweep κ) : List (Store α) :=
  .valid false :: .tick :: (wordStores record order.words ++ [.tick, .valid true])

/-- A reader: outside, past the flag, copying the words it has left, or done with them and with the
flag. `seen` and `first` tell after how many ticks it looked at the flag and at the counter. -/
inductive Reader (γ : Type w) (α : κ → Type v)
  | idle
  | ready (seen : ℕ)
  | copying (seen : ℕ) (count : γ) (first : ℕ) (copy : ∀ w, Option (α w)) (pending : List κ)
  | cleared (seen : ℕ) (count : γ) (first : ℕ) (copy : ∀ w, Option (α w))

/-- A copy that was accepted. -/
structure Read (α : κ → Type v) (ι : Type z) where
  reader : ι
  seen : ℕ
  first : ℕ
  last : ℕ
  words : ∀ w, Option (α w)

/-- The memory, the writer, the readers, and what is observed. -/
structure System (γ : Type w) (α : κ → Type v) (ι : Type z) where
  cell : Cell γ α
  writer : List (Store α)
  reader : ι → Reader γ α
  ticks : ℕ
  finished : ℕ
  versions : List (∀ w, α w)
  reads : List (Read α ι)

/-- A memory that is at rest. -/
def System.start (cell : Cell γ α) : System γ α ι where
  cell := cell
  writer := []
  reader := fun _ => .idle
  ticks := 0
  finished := 0
  versions := [cell.word]
  reads := []

/-- The accesses: the writer begins an update and makes its stores, a reader looks at the flag, at
the counter, at the words, clears the flag, and looks at the counter again. -/
inductive Event (α : κ → Type v) (ι : Type z)
  | begins (record : ∀ w, α w) (order : Sweep κ)
  | stores
  | looks (i : ι)
  | opens (i : ι) (order : Sweep κ)
  | copies (i : ι)
  | consumes (i : ι)
  | closes (i : ι)

/-- How far a store brings the counter up. -/
def Store.ticks : Store α → ℕ
  | .tick => 1
  | _ => 0

/-- Whether a store finishes an update. -/
def Store.finished : Store α → ℕ
  | .valid true => 1
  | _ => 0

/-- What a reader does that is past the flag. -/
def Reader.opened (cell : Cell γ α) (ticks : ℕ) (order : Sweep κ) : Reader γ α → Reader γ α
  | .ready seen => .copying seen cell.count ticks (fun _ => none) order.words
  | r => r

/-- The version an access adds: the record of an update that begins. -/
def Event.versions (writer : List (Store α)) : Event α ι → List (∀ w, α w)
  | .begins record _ => if writer.isEmpty then [record] else []
  | _ => []

theorem finished_update (record : ∀ w, α w) (order : Sweep κ) :
    ((update record order).map Store.finished).sum = 1 := by
  have hwords : ∀ words : List κ, ((wordStores record words).map Store.finished).sum = 0 := by
    intro words
    induction words with
    | nil => rfl
    | cons w words ih => simpa [wordStores, Store.finished] using ih
  simp [update, hwords, Store.finished]

section Steps

variable [DecidableEq κ] [DecidableEq γ] [DecidableEq ι] (tick : γ → γ)

def Store.apply (c : Cell γ α) : Store α → Cell γ α
  | .valid v => { c with valid := v }
  | .tick => { c with count := tick c.count }
  | .word w x => { c with word := Function.update c.word w x }

/-- The next word is copied. -/
def Reader.copied (cell : Cell γ α) : Reader γ α → Reader γ α
  | .copying seen count first copy (w :: pending) =>
    .copying seen count first (Function.update copy w (some (cell.word w))) pending
  | r => r

/-- A copy is accepted when the counter is the same as before. -/
def System.close (s : System γ α ι) (i : ι) (seen : ℕ) (count : γ) (first : ℕ)
    (copy : ∀ w, Option (α w)) : System γ α ι :=
  { s with
    reader := Function.update s.reader i .idle
    reads := if count = s.cell.count then ⟨i, seen, first, s.ticks, copy⟩ :: s.reads else s.reads }

/-- One access. -/
def step (s : System γ α ι) : Event α ι → System γ α ι
  | .begins record order =>
    match s.writer with
    | [] => { s with writer := update record order, versions := s.versions ++ [record] }
    | _ => s
  | .stores =>
    match s.writer with
    | [] => s
    | store :: rest =>
      { s with
        cell := store.apply tick s.cell
        writer := rest
        ticks := s.ticks + store.ticks
        finished := s.finished + store.finished }
  | .looks i =>
    match s.reader i with
    | .idle =>
      if s.cell.valid then { s with reader := Function.update s.reader i (.ready s.ticks) } else s
    | _ => s
  | .opens i order =>
    { s with reader := Function.update s.reader i ((s.reader i).opened s.cell s.ticks order) }
  | .copies i => { s with reader := Function.update s.reader i ((s.reader i).copied s.cell) }
  | .consumes i =>
    match s.reader i with
    | .copying seen count first copy [] =>
      { s with
        cell := { s.cell with valid := false }
        reader := Function.update s.reader i (.cleared seen count first copy) }
    | _ => s
  | .closes i =>
    match s.reader i with
    | .copying seen count first copy [] => s.close i seen count first copy
    | .cleared seen count first copy => s.close i seen count first copy
    | _ => s

variable {tick}

theorem versions_step (s : System γ α ι) (e : Event α ι) :
    (step tick s e).versions = s.versions ++ e.versions s.writer := by
  cases e with
  | begins record order =>
    rcases hwriter : s.writer with _ | ⟨store, rest⟩ <;>
      simp [step, hwriter, Event.versions]
  | stores => rcases hwriter : s.writer with _ | _ <;> simp [step, hwriter, Event.versions]
  | looks i =>
    rcases hi : s.reader i with _ | _ | _ | _ <;> simp only [step, hi, Event.versions]
    · split_ifs <;> simp
    all_goals simp
  | opens i order => simp [step, Event.versions]
  | copies i => simp [step, Event.versions]
  | consumes i =>
    rcases hi : s.reader i with _ | _ | ⟨_, _, _, _, _ | _⟩ | _ <;>
      simp [step, hi, Event.versions]
  | closes i =>
    rcases hi : s.reader i with _ | _ | ⟨_, _, _, _, _ | _⟩ | _ <;>
      simp [step, hi, Event.versions, System.close]

/-- The updates are finished or in progress. -/
def FinishedInv (s : System γ α ι) : Prop :=
  s.versions.length = 1 + s.finished + (s.writer.map Store.finished).sum

theorem FinishedInv.step {s : System γ α ι} (h : FinishedInv s) (e : Event α ι) :
    FinishedInv (step tick s e) := by
  simp only [FinishedInv] at h ⊢
  rw [versions_step, List.length_append, h]
  cases e with
  | begins record order =>
    rcases hwriter : s.writer with _ | ⟨store, rest⟩
    · simp [Seqlock.step, hwriter, Event.versions, finished_update]
    · simp [Seqlock.step, hwriter, Event.versions]
  | stores =>
    rcases hwriter : s.writer with _ | ⟨store, rest⟩
    · simp [Seqlock.step, hwriter, Event.versions]
    · simp only [Seqlock.step, hwriter, Event.versions, List.map_cons, List.sum_cons,
        List.length_nil]
      omega
  | looks i =>
    rcases hi : s.reader i with _ | _ | _ | _ <;> simp only [Seqlock.step, hi, Event.versions]
    · split_ifs <;> rfl
    all_goals rfl
  | opens i order => rfl
  | copies i => rfl
  | consumes i =>
    rcases hi : s.reader i with _ | _ | ⟨_, _, _, _, _ | _⟩ | _ <;>
      simp [Seqlock.step, hi, Event.versions]
  | closes i =>
    rcases hi : s.reader i with _ | _ | ⟨_, _, _, _, _ | _⟩ | _ <;>
      simp [Seqlock.step, hi, Event.versions, System.close]

/-- There are no more updates finished than begun. -/
theorem finished_lt (tick : γ → γ) (cell : Cell γ α) (es : List (Event α ι)) :
    (after (step tick) (System.start cell) es).finished
      < (after (step tick) (System.start cell) es).versions.length := by
  have hrun : FinishedInv (after (step tick) (System.start cell) es) :=
    after_induction rfl fun _ e h => h.step e
  rw [FinishedInv] at hrun
  omega

end Steps

/-! ### Versions -/

/-- The word of one version. -/
def Holds (versions : List (∀ w, α w)) (k : ℕ) (w : κ) (x : α w) : Prop :=
  ∃ record, versions[k]? = some record ∧ record w = x

/-- What a word may be after so many ticks: that of the version of the moment or, while an update is
in progress, of the next. -/
def Current (versions : List (∀ w, α w)) (ticks : ℕ) (w : κ) (x : α w) : Prop :=
  Holds versions (ticks / 2) w x ∨ ticks % 2 = 1 ∧ Holds versions (ticks / 2 + 1) w x

/-- Every word of the copy was current. -/
def Read.Genuine (versions : List (∀ w, α w)) (r : Read α ι) : Prop :=
  ∀ w, ∃ x, r.words w = some x ∧ Current versions r.first w x

/-- The copy is one version. -/
def Read.Exact (versions : List (∀ w, α w)) (r : Read α ι) : Prop :=
  ∃ record, versions[r.first / 2]? = some record ∧ ∀ w, r.words w = some (record w)

variable {versions : List (∀ w, α w)} {record previous : ∀ w, α w} {k n ticks : ℕ} {w : κ}
  {x : α w}

theorem getElem?_append_of_some (h : versions[k]? = some record) (more : List (∀ w, α w)) :
    (versions ++ more)[k]? = some record := by
  rw [List.getElem?_append_left (List.getElem?_eq_some_iff.mp h).1, h]

/-- What was current is so whatever comes later. -/
theorem Current.append (h : Current versions n w x) (more : List (∀ w, α w)) :
    Current (versions ++ more) n w x := by
  rcases h with ⟨record, hrecord, rfl⟩ | ⟨hodd, record, hrecord, rfl⟩
  · exact .inl ⟨record, getElem?_append_of_some hrecord more, rfl⟩
  · exact .inr ⟨hodd, record, getElem?_append_of_some hrecord more, rfl⟩

/-- Between two updates there is one version a word may be of. -/
theorem Current.holds (h : Current versions n w x) (heven : n % 2 = 0) :
    Holds versions (n / 2) w x := by
  rcases h with h | ⟨hodd, -⟩
  · exact h
  · omega

/-- **A copy is one version** when it was taken between two updates. -/
theorem Read.Genuine.exact [Nonempty κ] {r : Read α ι} (h : r.Genuine versions)
    (heven : r.first % 2 = 0) : r.Exact versions := by
  have hholds : ∀ w, ∃ record, versions[r.first / 2]? = some record ∧
      r.words w = some (record w) := fun w => by
    obtain ⟨x, hx, hcurrent⟩ := h w
    obtain ⟨record, hrecord, rfl⟩ := hcurrent.holds heven
    exact ⟨record, hrecord, hx⟩
  obtain ⟨record, hrecord, -⟩ := hholds (Classical.arbitrary κ)
  refine ⟨record, hrecord, fun w => ?_⟩
  obtain ⟨record', hrecord', hw⟩ := hholds w
  rw [hw, Option.some.inj (hrecord'.symm.trans hrecord)]

/-! ### The writer -/

/-- How far an update of `previous` to `record` is: the stores that are left, the ticks made, the
flag and the words. -/
inductive Progress (record previous : ∀ w, α w) :
    List (Store α) → ℕ → Bool → (∀ w, α w) → Prop
  | begun (order : Sweep κ) (valid : Bool) : Progress record previous (update record order) 0 valid
      previous
  | hidden (order : Sweep κ) : Progress record previous
      (.tick :: (wordStores record order.words ++ [.tick, .valid true])) 0 false previous
  | storing (pending : List κ) (word : ∀ w, α w)
      (hstored : ∀ w, w ∉ pending → word w = record w)
      (hword : ∀ w, word w = previous w ∨ word w = record w) :
      Progress record previous (wordStores record pending ++ [.tick, .valid true]) 1 false word
  | stored : Progress record previous [.valid true] 2 false record

/-- The stores left, the ticks, the flag, the words and the versions fit together. -/
inductive WriterInv :
    List (Store α) → ℕ → Bool → (∀ w, α w) → List (∀ w, α w) → Prop
  | rest {k : ℕ} {valid : Bool} {word : ∀ w, α w} {versions : List (∀ w, α w)}
      (hlength : versions.length = k + 1) (hword : versions[k]? = some word) :
      WriterInv [] (2 * k) valid word versions
  | busy {k j : ℕ} {record previous : ∀ w, α w} {stores : List (Store α)} {valid : Bool}
      {word : ∀ w, α w} {versions : List (∀ w, α w)}
      (hprogress : Progress record previous stores j valid word)
      (hlength : versions.length = k + 2) (hprevious : versions[k]? = some previous)
      (hrecord : versions[k + 1]? = some record) :
      WriterInv stores (2 * k + j) valid word versions

variable {todo : List (Store α)} {valid : Bool} {word : ∀ w, α w} {j : ℕ}

theorem Progress.ne_nil (h : Progress record previous todo j valid word) : todo ≠ [] := by
  cases h with
  | begun | hidden | stored => exact List.cons_ne_nil _ _
  | storing => exact List.append_ne_nil_of_right_ne_nil _ (List.cons_ne_nil _ _)

/-- Every word in memory is current. -/
theorem WriterInv.current (h : WriterInv todo ticks valid word versions) (w : κ) :
    Current versions ticks w (word w) := by
  cases h with
  | @rest k _ _ _ hlength hword =>
    refine .inl ⟨word, ?_, rfl⟩
    rwa [Nat.mul_div_cancel_left k (by decide)]
  | @busy k j _ _ _ _ _ _ hprogress hlength hprevious hrecord =>
    cases hprogress with
    | begun | hidden =>
      rw [Nat.add_zero]
      exact .inl ⟨_, by rwa [Nat.mul_div_cancel_left k (by decide)], rfl⟩
    | storing pending _ hstored hword =>
      have hhalf : (2 * k + 1) / 2 = k := by omega
      rcases hword w with hold | hnew
      · exact .inl ⟨_, by rwa [hhalf], hold.symm⟩
      · exact .inr ⟨by omega, _, by rwa [hhalf], hnew.symm⟩
    | stored =>
      have hhalf : (2 * k + 2) / 2 = k + 1 := by omega
      exact .inl ⟨_, by rwa [hhalf], rfl⟩

/-- The flag is set between two updates only. -/
theorem WriterInv.even (h : WriterInv todo ticks true word versions) : ticks % 2 = 0 := by
  cases h with
  | rest => omega
  | busy hprogress =>
    cases hprogress with
    | begun => omega

/-- It is not set while it is about to be. -/
theorem WriterInv.not_shown (h : WriterInv [.valid true] ticks true word versions) : False := by
  generalize htodo : [Store.valid true] = todo at h
  cases h with
  | rest => cases htodo
  | busy hprogress =>
    cases hprogress with
    | begun => cases htodo

theorem Progress.clear (h : Progress record previous todo j valid word) :
    Progress record previous todo j false word := by
  cases h with
  | begun order => exact .begun order false
  | hidden order => exact .hidden order
  | storing pending _ hstored hword => exact .storing pending word hstored hword
  | stored => exact .stored

/-- A reader may clear the flag. -/
theorem WriterInv.clear (h : WriterInv todo ticks valid word versions) :
    WriterInv todo ticks false word versions := by
  cases h with
  | rest hlength hword => exact .rest hlength hword
  | busy hprogress hlength hprevious hrecord =>
    exact .busy hprogress.clear hlength hprevious hrecord

/-- An update begins. -/
theorem WriterInv.begins (h : WriterInv [] ticks valid word versions) (record : ∀ w, α w)
    (order : Sweep κ) :
    WriterInv (update record order) ticks valid word (versions ++ [record]) := by
  cases h with
  | @rest k _ _ _ hlength hword =>
    refine .busy (.begun order valid) ?_ (getElem?_append_of_some hword _) ?_
    · rw [List.length_append, hlength]
      rfl
    · rw [← hlength, List.getElem?_append_right le_rfl, Nat.sub_self]
      rfl
  | busy hprogress => exact absurd rfl hprogress.ne_nil

section Stores

variable [DecidableEq κ] {tick : γ → γ} {c : Cell γ α} {store : Store α} {rest : List (Store α)}

/-- A store of an update brings it further, or finishes it. -/
theorem Progress.next (h : Progress record previous (store :: rest) j c.valid c.word) :
    Progress record previous rest (j + store.ticks) (store.apply tick c).valid
        (store.apply tick c).word ∨
      rest = [] ∧ j + store.ticks = 2 ∧ (store.apply tick c).word = record := by
  generalize hvalid : c.valid = valid at h
  generalize hword : c.word = word at h
  generalize htodo : store :: rest = todo at h
  cases h with
  | begun order =>
    obtain ⟨rfl, rfl⟩ := List.cons.inj htodo
    have happly : (Store.apply tick c (.valid false)).word = previous := hword
    rw [happly]
    exact .inl (.hidden order)
  | hidden order =>
    obtain ⟨rfl, rfl⟩ := List.cons.inj htodo
    have happly : (Store.apply tick c .tick).word = previous := hword
    have hflag : (Store.apply tick c .tick).valid = false := hvalid
    rw [happly, hflag]
    exact .inl (.storing order.words previous (fun w hw => absurd (order.complete w) hw)
      fun w => .inl rfl)
  | storing pending _ hstored hmixed =>
    rcases pending with _ | ⟨w, pending⟩
    · obtain ⟨rfl, rfl⟩ := List.cons.inj htodo
      have happly : (Store.apply tick c .tick).word = record :=
        hword.trans (funext fun w => hstored w List.not_mem_nil)
      have hflag : (Store.apply tick c .tick).valid = false := hvalid
      rw [happly, hflag]
      exact .inl .stored
    · obtain ⟨rfl, rfl⟩ := List.cons.inj htodo
      have happly : (Store.apply tick c (.word w (record w))).word
          = Function.update word w (record w) := congrArg (Function.update · w (record w)) hword
      have hflag : (Store.apply tick c (.word w (record w))).valid = false := hvalid
      rw [happly, hflag]
      refine .inl (.storing pending _ (fun w' hw' => ?_) fun w' => ?_)
      · by_cases hw : w' = w
        · subst hw
          exact Function.update_self ..
        · rw [Function.update_of_ne hw]
          exact hstored w' (List.not_mem_cons_of_ne_of_not_mem hw hw')
      · by_cases hw : w' = w
        · subst hw
          exact .inr (Function.update_self ..)
        · rw [Function.update_of_ne hw]
          exact hmixed w'
  | stored =>
    obtain ⟨rfl, rfl⟩ := List.cons.inj htodo
    exact .inr ⟨rfl, rfl, hword⟩

/-- A store of the writer. -/
theorem WriterInv.next (h : WriterInv (store :: rest) ticks c.valid c.word versions) :
    WriterInv rest (ticks + store.ticks) (store.apply tick c).valid (store.apply tick c).word
      versions := by
  generalize htodo : store :: rest = todo at h
  cases h with
  | rest => cases htodo
  | @busy k j _ _ _ _ _ _ hprogress hlength hprevious hrecord =>
    subst htodo
    rw [Nat.add_assoc]
    rcases hprogress.next with hnext | ⟨rfl, htwo, hword⟩
    · exact .busy hnext hlength hprevious hrecord
    · rw [htwo, hword]
      exact .rest hlength hrecord

/-- The flag is shown by its own store, and that is made ready by a tick. -/
theorem WriterInv.tick_of_shown
    (h : WriterInv (store :: rest) ticks c.valid c.word versions)
    (hshown : (store.apply tick c).valid = true ∨ rest = [.valid true]) :
    store.ticks = 1 ∨ store :: rest = [.valid true] := by
  generalize hvalid : c.valid = valid at h
  generalize htodo : store :: rest = todo at h ⊢
  cases h with
  | rest => cases htodo
  | busy hprogress =>
    cases hprogress with
    | begun order =>
      obtain ⟨rfl, rfl⟩ := List.cons.inj htodo
      rcases hshown with hshown | hshown
      · cases hshown
      · cases (List.cons.inj hshown).1
    | hidden order =>
      obtain ⟨rfl, rfl⟩ := List.cons.inj htodo
      exact .inl rfl
    | storing pending =>
      rcases pending with _ | ⟨w, pending⟩
      · obtain ⟨rfl, rfl⟩ := List.cons.inj htodo
        exact .inl rfl
      · obtain ⟨rfl, rfl⟩ := List.cons.inj htodo
        rcases hshown with hshown | hshown
        · cases hvalid.symm.trans hshown
        · have hlength := congrArg List.length hshown
          simp at hlength
    | stored => exact .inr rfl

end Stores

/-! ### The readers -/

section Runs

variable (tick : γ → γ) (count₀ : γ)

/-- A copy in progress: the counter was that of its tick, the words not pending are copied, and they
are current as long as the counter stands. -/
structure CopyInv (ticks : ℕ) (versions : List (∀ w, α w)) (seen : ℕ) (count : γ) (first : ℕ)
    (copy : ∀ w, Option (α w)) (pending : List κ) : Prop where
  seen_even : seen % 2 = 0
  seen_le : seen ≤ first
  first_le : first ≤ ticks
  count_eq : count = tick^[first] count₀
  copied : ∀ w, w ∉ pending → (copy w).isSome = true
  current : first = ticks → ∀ w x, copy w = some x → Current versions first w x

/-- A reader at its place. -/
def ReaderInv (ticks : ℕ) (versions : List (∀ w, α w)) : Reader γ α → Prop
  | .idle => True
  | .ready seen => seen % 2 = 0 ∧ seen ≤ ticks
  | .copying seen count first copy pending =>
    CopyInv tick count₀ ticks versions seen count first copy pending
  | .cleared seen count first copy => CopyInv tick count₀ ticks versions seen count first copy []

/-- An accepted copy is genuine, unless the counter has come round. -/
structure ReadInv (versions : List (∀ w, α w)) (r : Read α ι) : Prop where
  seen_even : r.seen % 2 = 0
  seen_le : r.seen ≤ r.first
  first_le : r.first ≤ r.last
  count_eq : tick^[r.first] count₀ = tick^[r.last] count₀
  genuine : r.first = r.last → r.Genuine versions

/-- The invariant of every interleaving. -/
structure Inv (s : System γ α ι) : Prop where
  writer : WriterInv s.writer s.ticks s.cell.valid s.cell.word s.versions
  count_eq : s.cell.count = tick^[s.ticks] count₀
  readers : ∀ i, ReaderInv tick count₀ s.ticks s.versions (s.reader i)
  reads : ∀ r ∈ s.reads, ReadInv tick count₀ s.versions r

variable {tick count₀} {s : System γ α ι}

theorem inv_start (cell : Cell γ α) : Inv tick cell.count (System.start cell : System γ α ι) where
  writer := .rest (k := 0) rfl rfl
  count_eq := rfl
  readers := fun _ => trivial
  reads := fun _ hr => absurd hr List.not_mem_nil

/-- A reader is not disturbed by ticks or new versions, since a copy of it then is stale. -/
theorem ReaderInv.later {r : Reader γ α} (h : ReaderInv tick count₀ ticks versions r)
    (more : ℕ) (records : List (∀ w, α w)) :
    ReaderInv tick count₀ (ticks + more) (versions ++ records) r := by
  have hcopy : ∀ {seen count first copy pending},
      CopyInv tick count₀ ticks versions seen count first copy pending →
      CopyInv tick count₀ (ticks + more) (versions ++ records) seen count first copy pending := by
    intro seen count first copy pending h
    refine { h with first_le := h.first_le.trans (Nat.le_add_right _ _), current := ?_ }
    intro heq w x hx
    have hfirst : first = ticks := by have := h.first_le; omega
    exact (h.current hfirst w x hx).append records
  cases r with
  | idle => trivial
  | ready seen => exact ⟨h.1, h.2.trans (Nat.le_add_right _ _)⟩
  | copying => exact hcopy h
  | cleared => exact hcopy h

theorem ReadInv.later {r : Read α ι} (h : ReadInv tick count₀ versions r)
    (records : List (∀ w, α w)) : ReadInv tick count₀ (versions ++ records) r := by
  refine { h with genuine := fun heq w => ?_ }
  obtain ⟨x, hx, hcurrent⟩ := h.genuine heq w
  exact ⟨x, hx, hcurrent.append records⟩

/-- One reader moves on. -/
theorem Inv.setReader [DecidableEq ι] (h : Inv tick count₀ s) (i : ι) {r : Reader γ α}
    (hr : ReaderInv tick count₀ s.ticks s.versions r) :
    ∀ i', ReaderInv tick count₀ s.ticks s.versions (Function.update s.reader i r i') := by
  intro i'
  by_cases hi : i' = i
  · subst hi
    rwa [Function.update_self]
  · rw [Function.update_of_ne hi]
    exact h.readers i'

/-- The first look at the counter. -/
theorem Inv.opened (h : Inv tick count₀ s) (i : ι) (order : Sweep κ) :
    ReaderInv tick count₀ s.ticks s.versions ((s.reader i).opened s.cell s.ticks order) := by
  have hreader := h.readers i
  rcases hi : s.reader i with _ | seen | _ | _ <;> rw [hi] at hreader
  · exact hreader
  · exact
      { seen_even := hreader.1, seen_le := hreader.2, first_le := le_rfl, count_eq := h.count_eq
        copied := fun w hw => absurd (order.complete w) hw
        current := fun _ w x hx => by cases hx }
  · exact hreader
  · exact hreader

/-- A word copied is current. -/
theorem Inv.copied [DecidableEq κ] (h : Inv tick count₀ s) (i : ι) :
    ReaderInv tick count₀ s.ticks s.versions ((s.reader i).copied s.cell) := by
  have hreader := h.readers i
  rcases hi : s.reader i with _ | _ | ⟨seen, count, first, copy, _ | ⟨w, pending⟩⟩ | _ <;>
    rw [hi] at hreader
  · exact hreader
  · exact hreader
  · exact hreader
  · refine { hreader with copied := fun w' hw' => ?_, current := fun hfirst w' x hx => ?_ }
    · by_cases hw : w' = w
      · subst hw
        rw [Function.update_self]
        rfl
      · rw [Function.update_of_ne hw]
        exact hreader.copied w' (List.not_mem_cons_of_ne_of_not_mem hw hw')
    · by_cases hw : w' = w
      · subst hw
        rw [Function.update_self] at hx
        rw [← Option.some.inj hx, hfirst]
        exact h.writer.current w'
      · rw [Function.update_of_ne hw] at hx
        exact hreader.current hfirst w' x hx
  · exact hreader

variable [DecidableEq γ] [DecidableEq ι]

/-- The second look at the counter. -/
theorem Inv.close (h : Inv tick count₀ s) (i : ι) {seen : ℕ} {count : γ} {first : ℕ}
    {copy : ∀ w, Option (α w)}
    (hcopy : CopyInv tick count₀ s.ticks s.versions seen count first copy []) :
    Inv tick count₀ (s.close i seen count first copy) := by
  refine
    { writer := h.writer, count_eq := h.count_eq
      readers := h.setReader i (r := .idle) trivial, reads := fun r hr => ?_ }
  simp only [System.close] at hr
  split_ifs at hr with hsame
  · rcases List.mem_cons.mp hr with rfl | hr
    · refine
        { seen_even := hcopy.seen_even, seen_le := hcopy.seen_le, first_le := hcopy.first_le
          count_eq := ?_, genuine := fun heq w => ?_ }
      · rw [← hcopy.count_eq, ← h.count_eq, hsame]
      · obtain ⟨x, hx⟩ := Option.isSome_iff_exists.mp (hcopy.copied w List.not_mem_nil)
        exact ⟨x, hx, hcopy.current heq w x hx⟩
    · exact h.reads r hr
  · exact h.reads r hr

/-- **One access keeps the invariant.** -/
theorem Inv.step [DecidableEq κ] (h : Inv tick count₀ s) (e : Event α ι) :
    Inv tick count₀ (step tick s e) := by
  cases e with
  | begins record order =>
    rcases hwriter : s.writer with _ | ⟨store, rest⟩ <;> simp only [Seqlock.step, hwriter]
    · have hbusy := h.writer
      rw [hwriter] at hbusy
      exact
        { writer := hbusy.begins record order, count_eq := h.count_eq
          readers := fun i => (h.readers i).later 0 [record]
          reads := fun r hr => (h.reads r hr).later [record] }
    · exact h
  | stores =>
    rcases hwriter : s.writer with _ | ⟨store, rest⟩ <;> simp only [Seqlock.step, hwriter]
    · exact h
    · have hbusy := h.writer
      rw [hwriter] at hbusy
      refine
        { writer := hbusy.next, count_eq := ?_, readers := fun i => ?_, reads := h.reads }
      · cases store with
        | tick => exact (congrArg tick h.count_eq).trans (Function.iterate_succ_apply' ..).symm
        | valid => exact h.count_eq
        | word => exact h.count_eq
      · have hlater := (h.readers i).later store.ticks []
        rwa [List.append_nil] at hlater
  | looks i =>
    rcases hi : s.reader i with _ | _ | _ | _ <;> simp only [Seqlock.step, hi]
    · split_ifs with hvalid
      · have hwriter := h.writer
        rw [hvalid] at hwriter
        exact
          { h with
            writer := h.writer
            readers := h.setReader i (r := .ready s.ticks) ⟨hwriter.even, le_rfl⟩ }
      · exact h
    all_goals exact h
  | opens i order => exact { h with readers := h.setReader i (h.opened i order) }
  | copies i => exact { h with readers := h.setReader i (h.copied i) }
  | consumes i =>
    have hreader := h.readers i
    rcases hi : s.reader i with _ | _ | ⟨seen, count, first, copy, _ | _⟩ | _ <;>
      simp only [Seqlock.step, hi]
    · exact h
    · exact h
    · rw [hi] at hreader
      exact
        { h with
          writer := h.writer.clear
          readers := h.setReader i (r := .cleared seen count first copy) hreader }
    · exact h
    · exact h
  | closes i =>
    have hreader := h.readers i
    rcases hi : s.reader i with _ | _ | ⟨seen, count, first, copy, _ | _⟩ |
      ⟨seen, count, first, copy⟩ <;> simp only [Seqlock.step, hi]
    · exact h
    · exact h
    · rw [hi] at hreader
      exact h.close i hreader
    · exact h
    · rw [hi] at hreader
      exact h.close i hreader

variable [DecidableEq κ] {es : List (Event α ι)} {r : Read α ι}

theorem inv_after (cell : Cell γ α) (es : List (Event α ι)) :
    Inv tick cell.count (after (Seqlock.step tick) (System.start cell) es) :=
  after_induction (inv_start cell) fun _ e h => h.step e

/-- **What an accepted copy is.** In every interleaving, unless the counter comes round, the words
are those of the version current at the first look at the counter, or, if an update was in progress
there, of that version and the next. They are one version if none was; and none was when the counter
stood still from the look at the flag. -/
theorem accepted [Nonempty κ] (cell : Cell γ α)
    (hr : r ∈ (after (Seqlock.step tick) (System.start cell) es).reads)
    (hround : r.first ≤ r.last → tick^[r.first] cell.count = tick^[r.last] cell.count →
      r.first = r.last) :
    r.Genuine (after (Seqlock.step tick) (System.start cell) es).versions ∧
      (r.first % 2 = 0 → r.Exact (after (Seqlock.step tick) (System.start cell) es).versions) ∧
      (r.first = r.seen → r.first % 2 = 0) := by
  have hread := (inv_after cell es).reads r hr
  have hgenuine := hread.genuine (hround hread.first_le hread.count_eq)
  refine ⟨hgenuine, hgenuine.exact, fun hseen => ?_⟩
  rw [hseen]
  exact hread.seen_even

end Runs

/-! ### Alone -/

section Alone

variable [DecidableEq κ] {tick : γ → γ} {s : System γ α ι} {i : ι}

theorem foldl_wordStores (record : ∀ w, α w) (words : List κ) (c : Cell γ α) :
    (wordStores record words).foldl (Store.apply tick) c
      = { c with word := fun w => if w ∈ words then record w else c.word w } := by
  induction words generalizing c with
  | nil => simp [wordStores]
  | cons w words ih =>
    have hfold := ih (Store.apply tick c (.word w (record w)))
    simp only [wordStores, List.map_cons, List.foldl_cons] at hfold ⊢
    rw [hfold]
    simp only [Store.apply, Cell.mk.injEq, true_and]
    funext w'
    by_cases hw : w' = w
    · subst hw
      simp
    · simp [hw]

/-- An update alone. -/
theorem foldl_update (record : ∀ w, α w) (order : Sweep κ) (c : Cell γ α) :
    (update record order).foldl (Store.apply tick) c = ⟨true, tick (tick c.count), record⟩ := by
  simp only [update, List.foldl_cons, List.foldl_append, foldl_wordStores, List.foldl_nil,
    Store.apply, order.complete, if_true]

/-- A writer that is not disturbed makes its stores. -/
theorem after_stores [DecidableEq γ] [DecidableEq ι] (todo : List (Store α)) {s : System γ α ι}
    (hwriter : s.writer = todo) :
    (after (step tick) s (List.replicate todo.length .stores)).cell
      = todo.foldl (Store.apply tick) s.cell := by
  induction todo generalizing s with
  | nil => rfl
  | cons store todo ih =>
    have hnext : (step tick s .stores).writer = todo := by simp [step, hwriter]
    have hcell : (step tick s .stores).cell = store.apply tick s.cell := by simp [step, hwriter]
    rw [List.length_cons, List.replicate_succ, after_cons, ih hnext, hcell, List.foldl_cons]

/-- The accesses of a reader that is not disturbed. -/
def readAlone (i : ι) (order : Sweep κ) (consume : Bool) : List (Event α ι) :=
  .looks i :: .opens i order :: (List.replicate order.words.length (.copies i)
    ++ (if consume then [.consumes i] else []) ++ [.closes i])

variable [DecidableEq γ] [DecidableEq ι]

theorem after_copies {seen : ℕ} {count : γ} {first : ℕ} (pending : List κ)
    {copy : ∀ w, Option (α w)} (hi : s.reader i = .copying seen count first copy pending) :
    after (step tick) s (List.replicate pending.length (.copies i))
      = { s with
          reader := Function.update s.reader i (.copying seen count first
            (fun w => if w ∈ pending then some (s.cell.word w) else copy w) []) } := by
  induction pending generalizing s copy with
  | nil => simp [← hi]
  | cons w pending ih =>
    have hcopied : (step tick s (.copies i)).reader i
        = .copying seen count first (Function.update copy w (some (s.cell.word w))) pending := by
      simp [step, hi, Reader.copied]
    rw [List.length_cons, List.replicate_succ, after_cons, ih hcopied]
    simp only [step, Function.update_idem, System.mk.injEq, true_and, and_true]
    congr
    funext w'
    by_cases hw : w' = w
    · subst hw
      simp
    · simp [hw]

/-- **A reader alone** copies the record as it is. -/
theorem after_readAlone (hi : s.reader i = .idle) (hvalid : s.cell.valid = true) (order : Sweep κ)
    (consume : Bool) :
    after (step tick) s (readAlone i order consume)
      = { s with
          cell := { s.cell with valid := !consume }
          reads := ⟨i, s.ticks, s.ticks, s.ticks, fun w => some (s.cell.word w)⟩ :: s.reads } := by
  have hopened : step tick (step tick s (.looks i)) (.opens i order)
      = { s with
          reader := Function.update s.reader i
            (.copying s.ticks s.cell.count s.ticks (fun _ => none) order.words) } := by
    simp [step, hi, hvalid, Reader.opened]
  have hidle : Function.update s.reader i .idle = s.reader := by rw [← hi, Function.update_eq_self]
  simp only [readAlone, after_cons, hopened, after_append]
  rw [after_copies order.words (Function.update_self ..)]
  have hshown : s.cell = { s.cell with valid := true } := by rw [← hvalid]
  cases consume
  · simpa [step, System.close, order.complete, hidle] using hshown
  · simp [step, System.close, order.complete, hidle]

end Alone

end Seqlock
