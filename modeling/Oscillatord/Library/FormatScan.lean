import Mathlib.Data.List.Basic
import Oscillatord.Library.Numerals

/-!
# Conversions that store as they go

`sscanf` converts its text from left to right and stores each value at once, so that a text which
stops to match leaves the values before that place in the variables. `scan` is the list of the
stores it makes, for a format whose conversions have one separator between them; its length is
the number `sscanf` returns, and `storeAll` is what becomes of the variables `σ`.

A store depends on the text alone. So what a conversion sets is the same whatever the variables
held before, once the text gets as far as that conversion and none after it sets it again
(`exists_storeAll_eq`).
-/

namespace FormatScan

open CText

variable {σ β : Type*}

/-- What a conversion stores, and whether there is room for it. -/
structure Store (σ : Type*) where
  fits : Bool
  set : σ → σ

/-- A conversion of the text that is left: its store and the text after it, if it matches. -/
abbrev Conversion (σ : Type*) := List UInt8 → Option (Store σ × List UInt8)

/-- `%c`. -/
def char (set : UInt8 → σ → σ) : Conversion σ
  | [] => none
  | b :: rest => some ({ fits := true, set := set b }, rest)

/-- `%[^s]` for a stop `s`, into an array of `size` characters, one of which ends the string. -/
def textUntil (stop : UInt8) (size : ℕ) (set : List UInt8 → σ → σ) : Conversion σ := fun text =>
  let field := text.takeWhile (· != stop)
  if field = [] then none
  else some ({ fits := decide (field.length < size), set := set field },
    text.dropWhile (· != stop))

/-- `%d`. -/
def int (set : ℤ → σ → σ) : Conversion σ := fun text =>
  match scanInt 10 text with
  | .number value rest => some ({ fits := true, set := set (intOf value) }, rest)
  | _ => none

/-- `%i`. -/
def anyInt (set : ℤ → σ → σ) : Conversion σ := fun text =>
  match scanAnyInt text with
  | .number value rest => some ({ fits := true, set := set (intOf value) }, rest)
  | _ => none

/-- The text after the separator it begins with. -/
def afterSeparator (separator : UInt8) : List UInt8 → Option (List UInt8)
  | [] => none
  | b :: rest => if b = separator then some rest else none

/-- The stores of a format. -/
def scan (separator : UInt8) : List (Conversion σ) → List UInt8 → List (Store σ)
  | [], _ => []
  | conversion :: conversions, text =>
    match conversion text with
    | none => []
    | some (store, rest) =>
      store ::
        match afterSeparator separator rest with
        | none => []
        | some rest => scan separator conversions rest

/-- The variables after all stores. -/
def storeAll (stores : List (Store σ)) (s : σ) : σ := stores.foldl (fun s store => store.set s) s

@[simp] theorem storeAll_nil (s : σ) : storeAll [] s = s := rfl

@[simp] theorem storeAll_cons (store : Store σ) (stores : List (Store σ)) (s : σ) :
    storeAll (store :: stores) s = storeAll stores (store.set s) := rfl

/-- The last conversion of a format makes one store. -/
theorem scan_singleton {separator : UInt8} {conversion : Conversion σ} {text rest : List UInt8}
    {store : Store σ} (h : conversion text = some (store, rest)) :
    scan separator [conversion] text = [store] := by
  rw [scan, h]
  cases hrest : afterSeparator separator rest with
  | none => simp [hrest]
  | some rest' => simp [hrest, scan]

/-! ### What conversions keep and set -/

/-- No store of the conversion changes `view`. -/
def Keeps (conversion : Conversion σ) (view : σ → β) : Prop :=
  ∀ text store rest, conversion text = some (store, rest) → ∀ s, view (store.set s) = view s

/-- Every store of the conversion settles `view`. -/
def Settles (conversion : Conversion σ) (view : σ → β) : Prop :=
  ∀ text store rest, conversion text = some (store, rest) →
    ∃ value, ∀ s, view (store.set s) = value

variable {separator : UInt8} {conversion : Conversion σ} {conversions : List (Conversion σ)}
  {text : List UInt8} {view : σ → β}

/-! ### The three conversions -/

theorem keeps_char {set : UInt8 → σ → σ} (h : ∀ b s, view (set b s) = view s) :
    Keeps (char set) view := by
  rintro (_ | ⟨b, text⟩) store rest heq s
  · cases heq
  · cases heq
    exact h b s

theorem keeps_textUntil {stop : UInt8} {size : ℕ} {set : List UInt8 → σ → σ}
    (h : ∀ field s, view (set field s) = view s) : Keeps (textUntil stop size set) view := by
  intro text store rest heq s
  rw [textUntil] at heq
  split_ifs at heq
  cases heq
  exact h _ s

theorem keeps_int {set : ℤ → σ → σ} (h : ∀ n s, view (set n s) = view s) :
    Keeps (int set) view := by
  intro text store rest heq s
  rw [int] at heq
  split at heq
  · cases heq
    exact h _ s
  · cases heq

theorem settles_int {set : ℤ → σ → σ} {value : ℤ → β} (h : ∀ n s, view (set n s) = value n) :
    Settles (int set) view := by
  intro text store rest heq
  rw [int] at heq
  split at heq
  · cases heq
    exact ⟨_, h _⟩
  · cases heq

/-! ### Formats -/

/-- The stores after the first one are those of the conversions after the first one. -/
theorem scan_cons_cases (h : scan separator (conversion :: conversions) text ≠ []) :
    ∃ store rest more, conversion text = some (store, rest) ∧
      scan separator (conversion :: conversions) text = store :: more ∧
      (more = [] ∨ ∃ text', more = scan separator conversions text') := by
  rw [scan] at h ⊢
  cases hconversion : conversion text with
  | none => simp [hconversion] at h
  | some stored =>
    refine ⟨stored.1, stored.2, _, rfl, rfl, ?_⟩
    cases afterSeparator separator stored.2 with
    | none => exact .inl rfl
    | some text' => exact .inr ⟨text', rfl⟩

/-- Stores of conversions that keep a view keep it. -/
theorem storeAll_eq_of_keeps (h : ∀ c ∈ conversions, Keeps c view) (s : σ) :
    view (storeAll (scan separator conversions text) s) = view s := by
  induction conversions generalizing text s with
  | nil => rfl
  | cons conversion conversions ih =>
    by_cases hnone : scan separator (conversion :: conversions) text = []
    · rw [hnone, storeAll_nil]
    · obtain ⟨store, rest, more, hfirst, hscan, hmore⟩ := scan_cons_cases hnone
      have hkept := h conversion List.mem_cons_self text store rest hfirst s
      rw [hscan, storeAll_cons]
      rcases hmore with rfl | ⟨text', rfl⟩
      · exact hkept
      · rw [ih (fun c hc => h c (List.mem_cons_of_mem _ hc)), hkept]

/-- A text that matches at all settles what is set from its first character, and kept by all other
conversions. -/
theorem storeAll_char_eq {set : UInt8 → σ → σ} {value : UInt8 → β}
    (h : scan separator (char set :: conversions) text ≠ [])
    (hset : ∀ b s, view (set b s) = value b) (hkeeps : ∀ c ∈ conversions, Keeps c view) :
    ∃ b, text.head? = some b ∧
      ∀ s, view (storeAll (scan separator (char set :: conversions) text) s) = value b := by
  obtain ⟨store, rest, more, hfirst, hscan, hmore⟩ := scan_cons_cases h
  cases text with
  | nil => cases hfirst
  | cons b text =>
    cases hfirst
    refine ⟨b, rfl, fun s => ?_⟩
    rw [hscan, storeAll_cons]
    rcases hmore with rfl | ⟨text', rfl⟩
    · exact hset b s
    · rw [storeAll_eq_of_keeps hkeeps]
      exact hset b s

/-- **What a conversion settles.** A text that matches up to a conversion that settles a view, kept
by all conversions after it, settles the view. -/
theorem exists_storeAll_eq (before after : List (Conversion σ))
    (hreached : before.length < (scan separator (before ++ conversion :: after) text).length)
    (hsettles : Settles conversion view) (hkeeps : ∀ c ∈ after, Keeps c view) :
    ∃ value, ∀ s,
      view (storeAll (scan separator (before ++ conversion :: after) text) s) = value := by
  induction before generalizing text with
  | nil =>
    obtain ⟨store, rest, more, hfirst, hscan, hmore⟩ :=
      scan_cons_cases (List.ne_nil_of_length_pos hreached)
    obtain ⟨value, hvalue⟩ := hsettles text store rest hfirst
    refine ⟨value, fun s => ?_⟩
    rw [List.nil_append, hscan, storeAll_cons]
    rcases hmore with rfl | ⟨text', rfl⟩
    · exact hvalue s
    · rw [storeAll_eq_of_keeps hkeeps, hvalue]
  | cons first before ih =>
    rw [List.cons_append] at hreached ⊢
    obtain ⟨store, rest, more, hfirst, hscan, hmore⟩ :=
      scan_cons_cases (List.ne_nil_of_length_pos (Nat.zero_lt_of_lt hreached))
    rw [hscan, List.length_cons, List.length_cons, Nat.succ_lt_succ_iff] at hreached
    rcases hmore with rfl | ⟨text', rfl⟩
    · exact absurd hreached (Nat.not_lt_zero _)
    · obtain ⟨value, hvalue⟩ := ih hreached
      exact ⟨value, fun s => by rw [hscan, storeAll_cons, hvalue]⟩

end FormatScan
