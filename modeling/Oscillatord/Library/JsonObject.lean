import Mathlib.Data.List.Infix
import Mathlib.Data.UInt
import Mathlib.Tactic.Common

/-!
# The text of a JSON object

A JSON text is read byte by byte by a machine with a stack: the containers that are open, and what
may come next in the innermost of them. An object ends with the brace that leaves no container
open, and the machine stops there, so no object is the beginning of another
(`IsObject.prefix_free`). Control characters are never part of an object except as white space;
in particular an object has no NUL byte (`IsObject.nul_notMem`). What a string holds is not
required to be valid UTF-8.
-/

namespace JsonObject

/-- A container. -/
inductive Container
  | object
  | array
  deriving Repr, DecidableEq

/-- What may come next in the innermost open container. -/
inductive Point
  | firstKey
  | key
  | colon
  | firstElement
  | value
  | afterValue
  | string (isKey : Bool)
  | escape (isKey : Bool)
  | hexDigits (isKey : Bool) (left : ℕ)
  | word (rest : List UInt8)
  | minus
  | zero
  | digits
  | decimalPoint
  | fraction
  | exponent
  | exponentSign
  | exponentDigits
  deriving Repr, DecidableEq

/-- The containers that are open, the innermost first, and the point reached in it. -/
structure Scan where
  opened : List Container
  point : Point
  deriving Repr, DecidableEq

/-! ### Bytes -/

/-- White space: space, tab, line feed and carriage return. -/
def isSpace (b : UInt8) : Bool := b = 0x20 || b = 0x09 || b = 0x0A || b = 0x0D

/-- A decimal digit. -/
def isDigit (b : UInt8) : Bool := 0x30 ≤ b && b ≤ 0x39

/-- A hexadecimal digit. -/
def isHexDigit (b : UInt8) : Bool :=
  isDigit b || 0x41 ≤ b && b ≤ 0x46 || 0x61 ≤ b && b ≤ 0x66

/-- The bytes that stand for one character after a backslash. -/
def isEscape (b : UInt8) : Bool :=
  [0x22, 0x5C, 0x2F, 0x62, 0x66, 0x6E, 0x72, 0x74].contains b

/-! ### The machine -/

/-- A byte after a value in `container`. -/
def stepAfterValue (container : Container) (outer : List Container) (b : UInt8) : Option Scan :=
  if isSpace b then some ⟨container :: outer, .afterValue⟩
  else match container with
    | .object =>
      if b = 0x2C then some ⟨.object :: outer, .key⟩
      else if b = 0x7D then some ⟨outer, .afterValue⟩
      else none
    | .array =>
      if b = 0x2C then some ⟨.array :: outer, .value⟩
      else if b = 0x5D then some ⟨outer, .afterValue⟩
      else none

/-- A byte where a value is expected. -/
def stepValue (opened : List Container) (b : UInt8) : Option Scan :=
  if isSpace b then some ⟨opened, .value⟩
  else if b = 0x22 then some ⟨opened, .string false⟩
  else if b = 0x7B then some ⟨.object :: opened, .firstKey⟩
  else if b = 0x5B then some ⟨.array :: opened, .firstElement⟩
  else if b = 0x2D then some ⟨opened, .minus⟩
  else if b = 0x30 then some ⟨opened, .zero⟩
  else if isDigit b then some ⟨opened, .digits⟩
  else if b = 0x74 then some ⟨opened, .word [0x72, 0x75, 0x65]⟩
  else if b = 0x66 then some ⟨opened, .word [0x61, 0x6C, 0x73, 0x65]⟩
  else if b = 0x6E then some ⟨opened, .word [0x75, 0x6C, 0x6C]⟩
  else none

/-- A byte in a number that may end before it. -/
def stepNumber (container : Container) (outer : List Container) (same : Option Point)
    (mayPoint mayExponent : Bool) (b : UInt8) : Option Scan :=
  if isDigit b then same.map fun point => ⟨container :: outer, point⟩
  else if mayPoint && b = 0x2E then some ⟨container :: outer, .decimalPoint⟩
  else if mayExponent && (b = 0x65 || b = 0x45) then some ⟨container :: outer, .exponent⟩
  else stepAfterValue container outer b

/-- A byte in `container`, at `point`. -/
def stepIn (container : Container) (outer : List Container) (b : UInt8) : Point → Option Scan
  | .firstKey =>
    if isSpace b then some ⟨container :: outer, .firstKey⟩
    else if b = 0x7D then some ⟨outer, .afterValue⟩
    else if b = 0x22 then some ⟨container :: outer, .string true⟩
    else none
  | .key =>
    if isSpace b then some ⟨container :: outer, .key⟩
    else if b = 0x22 then some ⟨container :: outer, .string true⟩
    else none
  | .colon =>
    if isSpace b then some ⟨container :: outer, .colon⟩
    else if b = 0x3A then some ⟨container :: outer, .value⟩
    else none
  | .firstElement =>
    if isSpace b then some ⟨container :: outer, .firstElement⟩
    else if b = 0x5D then some ⟨outer, .afterValue⟩
    else stepValue (container :: outer) b
  | .value => stepValue (container :: outer) b
  | .afterValue => stepAfterValue container outer b
  | .string isKey =>
    if b < 0x20 then none
    else if b = 0x22 then some ⟨container :: outer, if isKey then .colon else .afterValue⟩
    else if b = 0x5C then some ⟨container :: outer, .escape isKey⟩
    else some ⟨container :: outer, .string isKey⟩
  | .escape isKey =>
    if isEscape b then some ⟨container :: outer, .string isKey⟩
    else if b = 0x75 then some ⟨container :: outer, .hexDigits isKey 3⟩
    else none
  | .hexDigits isKey left =>
    if isHexDigit b then
      some ⟨container :: outer, if left = 0 then .string isKey else .hexDigits isKey (left - 1)⟩
    else none
  | .word rest =>
    if rest.head? = some b then
      some ⟨container :: outer, if rest.tail = [] then .afterValue else .word rest.tail⟩
    else none
  | .minus =>
    if b = 0x30 then some ⟨container :: outer, .zero⟩
    else if isDigit b then some ⟨container :: outer, .digits⟩
    else none
  | .zero => stepNumber container outer none true true b
  | .digits => stepNumber container outer (some .digits) true true b
  | .decimalPoint => if isDigit b then some ⟨container :: outer, .fraction⟩ else none
  | .fraction => stepNumber container outer (some .fraction) false true b
  | .exponent =>
    if b = 0x2B || b = 0x2D then some ⟨container :: outer, .exponentSign⟩
    else if isDigit b then some ⟨container :: outer, .exponentDigits⟩
    else none
  | .exponentSign => if isDigit b then some ⟨container :: outer, .exponentDigits⟩ else none
  | .exponentDigits => stepNumber container outer (some .exponentDigits) false false b

/-- One byte: nothing follows the end of the outermost container. -/
def step (s : Scan) (b : UInt8) : Option Scan :=
  match s.opened with
  | [] => none
  | container :: outer =>
    if b < 0x20 && !isSpace b then none else stepIn container outer b s.point

/-- The text as far as the machine reads it. -/
def scan : List UInt8 → Option Scan
  | [] => none
  | b :: text => if b = 0x7B then text.foldlM step ⟨[.object], .firstKey⟩ else none

/-- The text is that of an object. -/
def IsObject (text : List UInt8) : Prop := ∃ s, scan text = some s ∧ s.opened = []

instance : DecidablePred IsObject := fun text =>
  match h : scan text with
  | none => isFalse fun ⟨s, hs, _⟩ => by rw [h] at hs; cases hs
  | some s =>
    decidable_of_iff (s.opened = [])
      ⟨fun hs => ⟨s, h, hs⟩, fun ⟨t, ht, hopened⟩ => by
        rw [h] at ht
        obtain rfl := Option.some.inj ht
        exact hopened⟩

/-! ### Objects -/

variable {text rest : List UInt8} {s t : Scan}

theorem step_of_closed (h : s.opened = []) (b : UInt8) : step s b = none := by
  rw [step, h]

theorem step_nul (s : Scan) : step s 0 = none := by
  rcases s with ⟨_ | ⟨container, outer⟩, point⟩
  · rfl
  · rfl

/-- An object begins with its brace. -/
theorem IsObject.exists_cons (h : IsObject text) :
    ∃ rest s, text = 0x7B :: rest ∧ rest.foldlM step ⟨[.object], .firstKey⟩ = some s ∧
      s.opened = [] := by
  obtain ⟨s, hscan, hopened⟩ := h
  rcases text with _ | ⟨b, rest⟩
  · cases hscan
  · rw [scan] at hscan
    split_ifs at hscan with hb
    exact ⟨rest, s, by rw [hb], hscan, hopened⟩

/-- The machine reads no NUL byte. -/
theorem nul_notMem_of_foldlM (h : text.foldlM step s = some t) : 0 ∉ text := by
  induction text generalizing s with
  | nil => exact List.not_mem_nil
  | cons b text ih =>
    rw [List.foldlM_cons] at h
    obtain ⟨s', hstep, hrest⟩ := Option.bind_eq_some_iff.mp h
    refine List.not_mem_cons_of_ne_of_not_mem ?_ (ih hrest)
    rintro rfl
    rw [step_nul] at hstep
    cases hstep

/-- **An object has no NUL byte.** -/
theorem IsObject.nul_notMem (h : IsObject text) : 0 ∉ text := by
  obtain ⟨rest, s, rfl, hrest, -⟩ := h.exists_cons
  exact List.not_mem_cons_of_ne_of_not_mem (by decide) (nul_notMem_of_foldlM hrest)

/-- **No object is the beginning of another.** -/
theorem IsObject.prefix_free {text' : List UInt8} (h : IsObject text) (h' : IsObject text')
    (hpre : text <+: text') : text = text' := by
  obtain ⟨rest, s, rfl, hrest, hopened⟩ := h.exists_cons
  obtain ⟨rest', s', rfl, hrest', -⟩ := h'.exists_cons
  obtain ⟨more, rfl⟩ := (List.cons_prefix_cons.mp hpre).2
  rcases more with _ | ⟨b, more⟩
  · rw [List.append_nil]
  · rw [List.foldlM_append, hrest] at hrest'
    -- the machine has stopped at the end of the first object
    have hstop : (b :: more).foldlM step s = none := by
      rw [List.foldlM_cons, step_of_closed hopened]
      rfl
    exact absurd (hstop.symm.trans hrest') (by simp)

/-- The first object that a text begins with is the only one. -/
theorem IsObject.find?_inits_append (h : IsObject text) (rest : List UInt8) :
    (text ++ rest).inits.find? (fun value => decide (IsObject value)) = some text := by
  have hsome : ((text ++ rest).inits.find? fun value => decide (IsObject value)).isSome = true := by
    rw [List.find?_isSome]
    exact ⟨text, (List.mem_inits _ _).mpr (List.prefix_append _ _), decide_eq_true h⟩
  obtain ⟨value, hvalue⟩ := Option.isSome_iff_exists.mp hsome
  have hobject : IsObject value := by simpa using List.find?_some hvalue
  have hpre := (List.mem_inits _ _).mp (List.mem_of_find?_eq_some hvalue)
  rw [hvalue]
  rcases List.prefix_or_prefix_of_prefix hpre (List.prefix_append text rest) with hle | hle
  · rw [hobject.prefix_free h hle]
  · rw [h.prefix_free hobject hle]

example : IsObject
    "\x7b\"request\": [1, -2.5e3, null], \"text\": \x7b\"a\": \"\x7b\"\x7d\x7d".toUTF8.toList := by
  decide +kernel

end JsonObject
