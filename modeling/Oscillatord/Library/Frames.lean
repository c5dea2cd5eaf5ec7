import Mathlib.Data.List.Infix
import Mathlib.Tactic.Common

/-!
# Frames in a stream

A stream of symbols carries frames when it is made of them, one after the other, with separators
around them that do not contain the symbol every frame begins with. Frames are prefix-free, so a
stream is made of one sequence of frames at most (`Framed.unique`), and the streams of two
sequences, one after the other, are the stream of both (`Framed.append`).

A stream arrives in chunks. `chunkwise` is what is served of it by a reader that keeps nothing from
one chunk to the next and serves at most the first frame of each: it ends at the first chunk with
an unfinished frame, or when a service fails to be kept. It serves every frame of the stream
exactly when no chunk holds more than one frame, none cuts a frame, and every service but the last
is kept (`chunkwise_eq_iff`).
-/

universe u

/-- Frames over an alphabet: they begin with one symbol, and none is the beginning of another. -/
structure FrameFormat (α : Type u) where
  start : α
  IsFrame : List α → Prop
  head_eq : ∀ {f}, IsFrame f → f.head? = some start
  prefix_free : ∀ {f g}, IsFrame f → IsFrame g → f <+: g → f = g

namespace FrameFormat

variable {α : Type u} {F : FrameFormat α}

/-- The stream is made of the frames, with separators around them. -/
inductive Framed (F : FrameFormat α) : List (List α) → List α → Prop
  | separator {s : List α} (hs : F.start ∉ s) : Framed F [] s
  | frame {s f rest : List α} {fs : List (List α)} (hs : F.start ∉ s) (hf : F.IsFrame f)
      (hrest : Framed F fs rest) : Framed F (f :: fs) (s ++ (f ++ rest))

variable {s s' t t' f x y : List α} {fs gs : List (List α)}

/-! ### Frames and separators -/

theorem IsFrame.eq_cons (hf : F.IsFrame f) : ∃ t, f = F.start :: t := by
  have hhead := F.head_eq hf
  rcases f with _ | ⟨a, t⟩
  · cases hhead
  · obtain rfl := Option.some.inj hhead
    exact ⟨t, rfl⟩

theorem IsFrame.start_mem (hf : F.IsFrame f) : F.start ∈ f := by
  obtain ⟨t, rfl⟩ := hf.eq_cons
  exact List.mem_cons_self

/-- A stream has one first frame at most. -/
theorem first_unique {g : List α} (hs : F.start ∉ s) (hs' : F.start ∉ s') (hf : F.IsFrame f)
    (hg : F.IsFrame g) (h : s ++ (f ++ t) = s' ++ (g ++ t')) : s = s' ∧ f = g ∧ t = t' := by
  induction s generalizing s' with
  | nil =>
    have hnil : s' = [] := by
      rcases s' with _ | ⟨a, s'⟩
      · rfl
      · obtain ⟨u, rfl⟩ := hf.eq_cons
        obtain rfl := (List.cons.inj h).1
        exact absurd List.mem_cons_self hs'
    subst hnil
    have heq : f ++ t = g ++ t' := h
    -- both frames are prefixes of one list, so one is a prefix of the other
    have hfg : f = g := by
      rcases List.prefix_or_prefix_of_prefix (List.prefix_append f t)
        (heq ▸ List.prefix_append g t') with hle | hge
      · exact F.prefix_free hf hg hle
      · exact (F.prefix_free hg hf hge).symm
    subst hfg
    exact ⟨rfl, rfl, List.append_cancel_left heq⟩
  | cons a s ih =>
    rcases s' with _ | ⟨b, s'⟩
    · obtain ⟨u, rfl⟩ := hg.eq_cons
      obtain rfl := (List.cons.inj h).1
      exact absurd List.mem_cons_self hs
    · obtain ⟨rfl, htail⟩ := List.cons.inj h
      obtain ⟨rfl, hrest⟩ := ih (fun hm => hs (List.mem_cons_of_mem _ hm))
        (fun hm => hs' (List.mem_cons_of_mem _ hm)) htail
      exact ⟨rfl, hrest⟩

/-- The first symbols of `x` that may begin a frame begin the frame `f`. -/
def Begins (F : FrameFormat α) (x f : List α) : Prop :=
  F.IsFrame f ∧ ∃ s t, F.start ∉ s ∧ x = s ++ (f ++ t)

theorem Begins.unique {g : List α} (hf : F.Begins x f) (hg : F.Begins x g) : f = g := by
  obtain ⟨hf, s, t, hs, rfl⟩ := hf
  obtain ⟨hg, s', t', hs', h⟩ := hg
  exact (first_unique hs hs' hf hg h).2.1

theorem Begins.start_mem (h : F.Begins x f) : F.start ∈ x := by
  obtain ⟨hf, s, t, -, rfl⟩ := h
  exact List.mem_append_right s (List.mem_append_left t hf.start_mem)

theorem Framed.begins (h : F.Framed (f :: fs) x) : F.Begins x f := by
  cases h with
  | frame hs hf _ => exact ⟨hf, _, _, hs, rfl⟩

theorem Framed.start_notMem (h : F.Framed [] x) : F.start ∉ x := by
  cases h with
  | separator hs => exact hs

/-- A stream that a separator begins is made of the same frames as the rest of it. -/
theorem Framed.separator_append (hs : F.start ∉ s) (h : Framed F fs x) : Framed F fs (s ++ x) := by
  cases h with
  | separator hx => exact .separator fun hm => (List.mem_append.mp hm).elim hs hx
  | frame hs' hf hrest =>
    rw [← List.append_assoc]
    exact .frame (fun hm => (List.mem_append.mp hm).elim hs hs') hf hrest

/-- **Streams one after the other** are made of the frames of both. -/
theorem Framed.append (hx : Framed F fs x) (hy : Framed F gs y) : Framed F (fs ++ gs) (x ++ y) := by
  induction hx with
  | separator hs => exact hy.separator_append hs
  | frame hs hf _ ih =>
    rw [List.append_assoc, List.append_assoc]
    exact .frame hs hf ih

/-- **A stream is made of one sequence of frames** at most. -/
theorem Framed.unique (hf : Framed F fs x) (hg : Framed F gs x) : fs = gs := by
  induction hf generalizing gs with
  | separator hs =>
    rcases gs with _ | ⟨g, gs⟩
    · rfl
    · exact absurd hg.begins.start_mem hs
  | @frame s f rest fs hs hf _ ih =>
    generalize hx : s ++ (f ++ rest) = x at hg
    cases hg with
    | separator hs' =>
      rw [← hx] at hs'
      exact absurd (List.mem_append_right s (List.mem_append_left rest hf.start_mem)) hs'
    | frame hs' hg hrest' =>
      obtain ⟨-, rfl, rfl⟩ := first_unique hs hs' hf hg hx
      rw [ih hrest']

section Count

variable [DecidableEq α]

/-- The symbols that may begin a frame are all in the frames. -/
theorem Framed.count_start (h : Framed F fs x) :
    x.count F.start = fs.flatten.count F.start := by
  induction h with
  | separator hs => rw [List.count_eq_zero_of_not_mem hs, List.flatten_nil, List.count_nil]
  | frame hs _ _ ih =>
    rw [List.count_append, List.count_eq_zero_of_not_mem hs, List.flatten_cons, List.count_append,
      List.count_append, ih, Nat.zero_add]

end Count

/-! ### One frame a chunk -/

open Classical in
/-- The frame that the chunk begins, if any. -/
noncomputable def firstFrame (F : FrameFormat α) (c : List α) : Option (List α) :=
  if h : ∃ f, F.Begins c f then some h.choose else none

theorem firstFrame_eq_some {c : List α} (h : F.Begins c f) : F.firstFrame c = some f := by
  have hex : ∃ f, F.Begins c f := ⟨f, h⟩
  rw [firstFrame, dif_pos hex, hex.choose_spec.unique h]

theorem firstFrame_eq_none {c : List α} (h : ∀ f, ¬ F.Begins c f) : F.firstFrame c = none := by
  rw [firstFrame, dif_neg fun ⟨f, hf⟩ => h f hf]

open Classical in
/-- What a reader serves that serves the first frame of each chunk and forgets the rest of it,
until a chunk holds only an unfinished frame or a service is not kept. -/
noncomputable def chunkwise (F : FrameFormat α) : (ℕ → Prop) → List (List α) → List (List α)
  | _, [] => []
  | kept, c :: cs =>
    match F.firstFrame c with
    | some f => f :: if kept 0 then chunkwise F (fun k => kept (k + 1)) cs else []
    | none => if F.start ∈ c then [] else chunkwise F kept cs

variable {kept : ℕ → Prop} {c : List α} {cs : List (List α)}

open Classical in
theorem chunkwise_of_begins (h : F.Begins c f) :
    F.chunkwise kept (c :: cs) =
      f :: if kept 0 then F.chunkwise (fun k => kept (k + 1)) cs else [] := by
  rw [chunkwise, firstFrame_eq_some h]

/-- A chunk without a frame is passed over. -/
theorem chunkwise_of_separator (h : F.start ∉ c) :
    F.chunkwise kept (c :: cs) = F.chunkwise kept cs := by
  have hnone : F.firstFrame c = none := firstFrame_eq_none fun f hf => h hf.start_mem
  rw [chunkwise, hnone]
  exact if_neg h

/-- An unfinished frame ends the service. -/
theorem chunkwise_of_unfinished (hstart : F.start ∈ c) (h : ∀ f, ¬ F.Begins c f) :
    F.chunkwise kept (c :: cs) = [] := by
  rw [chunkwise, firstFrame_eq_none h]
  exact if_pos hstart

/-- The chunk is made of one frame at most. -/
def SingleFrame (F : FrameFormat α) (c : List α) : Prop :=
  ∃ fs, fs.length ≤ 1 ∧ F.Framed fs c

theorem SingleFrame.cases (h : F.SingleFrame c) :
    F.Framed [] c ∨ ∃ f, F.Framed [f] c := by
  obtain ⟨fs, hlen, hfs⟩ := h
  rcases fs with _ | ⟨f, _ | ⟨g, fs⟩⟩
  · exact .inl hfs
  · exact .inr ⟨f, hfs⟩
  · simp at hlen

/-- Chunks of one frame at most are made of frames together. -/
theorem exists_framed_flatten (h : ∀ c ∈ cs, F.SingleFrame c) : ∃ fs, F.Framed fs cs.flatten := by
  induction cs with
  | nil => exact ⟨[], .separator List.not_mem_nil⟩
  | cons c cs ih =>
    obtain ⟨gs, hgs⟩ := ih fun c hc => h c (List.mem_cons_of_mem _ hc)
    obtain ⟨fs, -, hfs⟩ := h c List.mem_cons_self
    exact ⟨fs ++ gs, hfs.append hgs⟩

/-- Chunks of one frame at most are served in full, as long as the services are kept. -/
theorem chunkwise_of_singleFrame (hsingle : ∀ c ∈ cs, F.SingleFrame c)
    (hframed : F.Framed fs cs.flatten) (hkept : ∀ k, k + 1 < fs.length → kept k) :
    F.chunkwise kept cs = fs := by
  -- the frames of a stream are unique, so those of the first chunk and those of the rest are
  -- the frames of the whole
  induction cs generalizing fs kept with
  | nil =>
    have hnil : F.Framed [] ([] : List α) := .separator List.not_mem_nil
    exact hnil.unique hframed
  | cons c cs ih =>
    have htail : ∀ c ∈ cs, F.SingleFrame c := fun c hc => hsingle c (List.mem_cons_of_mem _ hc)
    obtain ⟨gs, hgs⟩ := exists_framed_flatten htail
    rcases (hsingle c List.mem_cons_self).cases with hc | ⟨f, hc⟩
    · rw [chunkwise_of_separator hc.start_notMem]
      obtain rfl := (hc.append hgs).unique hframed
      exact ih htail hgs hkept
    · rw [chunkwise_of_begins hc.begins]
      obtain rfl := (hc.append hgs).unique hframed
      by_cases hk : kept 0
      · rw [if_pos hk, ih htail hgs fun k hlt => hkept (k + 1) (by simpa using hlt)]
        rfl
      · -- only the last service may fail to be kept
        have hlast : gs = [] := by
          rcases gs with _ | ⟨g, gs⟩
          · rfl
          · exact absurd (hkept 0 (by simp)) hk
        rw [if_neg hk, hlast]
        rfl

section Count

variable [DecidableEq α]

/-- No more symbols that may begin a frame are served than arrive. -/
theorem count_chunkwise_le (kept : ℕ → Prop) (cs : List (List α)) :
    (F.chunkwise kept cs).flatten.count F.start ≤ cs.flatten.count F.start := by
  induction cs generalizing kept with
  | nil => exact le_rfl
  | cons c cs ih =>
    rw [List.flatten_cons, List.count_append]
    by_cases hbegins : ∃ f, F.Begins c f
    · obtain ⟨f, hf⟩ := hbegins
      rw [chunkwise_of_begins hf]
      obtain ⟨-, s, t, -, rfl⟩ := hf
      rw [List.flatten_cons]
      simp only [List.count_append]
      have hrest := ih fun k => kept (k + 1)
      by_cases hk : kept 0
      · rw [if_pos hk]
        omega
      · rw [if_neg hk, List.flatten_nil, List.count_nil]
        omega
    · rw [not_exists] at hbegins
      by_cases hstart : F.start ∈ c
      · rw [chunkwise_of_unfinished hstart hbegins, List.flatten_nil, List.count_nil]
        exact Nat.zero_le _
      · rw [chunkwise_of_separator hstart]
        exact (ih kept).trans (Nat.le_add_left _ _)

/-- A reader that serves every symbol that may begin a frame is given one frame a chunk at most. -/
theorem singleFrame_of_count_chunkwise
    (h : (F.chunkwise kept cs).flatten.count F.start = cs.flatten.count F.start) :
    ∀ c ∈ cs, F.SingleFrame c := by
  induction cs generalizing kept with
  | nil => exact fun c hc => absurd hc List.not_mem_nil
  | cons c cs ih =>
    rw [List.flatten_cons, List.count_append] at h
    by_cases hbegins : ∃ f, F.Begins c f
    · obtain ⟨f, hf⟩ := hbegins
      rw [chunkwise_of_begins hf, List.flatten_cons, List.count_append] at h
      obtain ⟨hframe, s, t, hs, rfl⟩ := hf
      simp only [List.count_append, List.count_eq_zero_of_not_mem hs] at h
      have hrest := count_chunkwise_le (F := F) (fun k => kept (k + 1)) cs
      -- what the chunk holds after the frame is a separator, in both cases
      have hsingle : t.count F.start = 0 → F.SingleFrame (s ++ (f ++ t)) := fun ht =>
        ⟨[f], le_rfl, .frame hs hframe (.separator (List.count_eq_zero.mp ht))⟩
      by_cases hk : kept 0
      · rw [if_pos hk] at h
        have hc : t.count F.start = 0 := by omega
        have hcount : (F.chunkwise (fun k => kept (k + 1)) cs).flatten.count F.start
            = cs.flatten.count F.start := by omega
        exact List.forall_mem_cons.mpr ⟨hsingle hc, ih hcount⟩
      · rw [if_neg hk, List.flatten_nil, List.count_nil] at h
        have hc : t.count F.start = 0 := by omega
        refine List.forall_mem_cons.mpr ⟨hsingle hc, fun d hd => ?_⟩
        have hzero : cs.flatten.count F.start = 0 := by omega
        exact ⟨[], Nat.zero_le 1, .separator fun hm =>
          List.count_eq_zero.mp hzero (List.mem_flatten.mpr ⟨d, hd, hm⟩)⟩
    · rw [not_exists] at hbegins
      by_cases hstart : F.start ∈ c
      · rw [chunkwise_of_unfinished hstart hbegins, List.flatten_nil, List.count_nil] at h
        have hpos := List.count_pos_iff.mpr hstart
        omega
      · rw [chunkwise_of_separator hstart, List.count_eq_zero_of_not_mem hstart,
          Nat.zero_add] at h
        exact List.forall_mem_cons.mpr ⟨⟨[], Nat.zero_le 1, .separator hstart⟩, ih h⟩

end Count

/-- A reader serves another frame only when it has kept the services before. -/
theorem kept_of_lt_length_chunkwise {k : ℕ} (h : k + 1 < (F.chunkwise kept cs).length) :
    kept k := by
  induction cs generalizing kept k with
  | nil => exact absurd h (Nat.not_lt_zero _)
  | cons c cs ih =>
    by_cases hbegins : ∃ f, F.Begins c f
    · obtain ⟨f, hf⟩ := hbegins
      rw [chunkwise_of_begins hf, List.length_cons] at h
      by_cases hk : kept 0
      · rw [if_pos hk] at h
        rcases k with _ | k
        · exact hk
        · have hlen : k + 1 < (F.chunkwise (fun k => kept (k + 1)) cs).length := by omega
          have hnext := ih hlen
          exact hnext
      · rw [if_neg hk, List.length_nil] at h
        omega
    · rw [not_exists] at hbegins
      by_cases hstart : F.start ∈ c
      · rw [chunkwise_of_unfinished hstart hbegins, List.length_nil] at h
        omega
      · rw [chunkwise_of_separator hstart] at h
        exact ih h

/-- **When one frame a chunk is enough.** The reader serves the frames of the stream exactly when
each chunk is made of one frame at most and every service but the last is kept. -/
theorem chunkwise_eq_iff [DecidableEq α] (hframed : F.Framed fs cs.flatten) :
    F.chunkwise kept cs = fs ↔
      (∀ c ∈ cs, F.SingleFrame c) ∧ ∀ k, k + 1 < fs.length → kept k := by
  constructor
  · rintro rfl
    exact ⟨singleFrame_of_count_chunkwise hframed.count_start.symm,
      fun k hk => kept_of_lt_length_chunkwise hk⟩
  · rintro ⟨hsingle, hkept⟩
    exact chunkwise_of_singleFrame hsingle hframed hkept

end FrameFormat
