import Mathlib.Data.List.Basic
import Mathlib.Tactic.Common

/-!
# Directories, and the search for a file in them

A directory is the list of its entries, in the order in which the system lists them; an entry is a
directory again or a leaf, which is whatever is not searched. `walk` lists all leaves, each
directory where it is met, and `search` is the search for the first leaf of a name. It finds what
the list of all leaves has first (`search_eq`), and so finds a leaf of the name if there is one,
however deep (`search_isSome_iff`, `holds_of_search`).
-/

namespace DirectoryTree

universe u v

/-- An entry of a directory. -/
inductive Node (ν : Type u) (α : Type v)
  | leaf (name : ν) (data : α)
  | dir (name : ν) (entries : List (Node ν α))

variable {ν : Type u} {α : Type v}

def Node.name : Node ν α → ν
  | .leaf name _ => name
  | .dir name _ => name

@[simp] theorem Node.name_dir (name : ν) (entries : List (Node ν α)) :
    (Node.dir name entries).name = name := rfl

mutual

/-- The leaves of an entry, each with its path. -/
def Node.walk : Node ν α → List (List ν × α)
  | .leaf name data => [([name], data)]
  | .dir name entries => (walk entries).map fun w => (name :: w.1, w.2)

/-- The leaves of a directory. -/
def walk : List (Node ν α) → List (List ν × α)
  | [] => []
  | entry :: entries => entry.walk ++ walk entries

end

mutual

/-- The paths of an entry and of all that is below it. -/
def Node.paths : Node ν α → List (List ν)
  | .leaf name _ => [[name]]
  | .dir name entries => [name] :: (paths entries).map fun path => name :: path

/-- The paths of all that is below a directory. -/
def paths : List (Node ν α) → List (List ν)
  | [] => []
  | entry :: entries => entry.paths ++ paths entries

end

/-- A leaf is reached by a path. -/
inductive Holds : List (Node ν α) → List ν → α → Prop
  | leaf {entries : List (Node ν α)} {name : ν} {data : α} (h : .leaf name data ∈ entries) :
      Holds entries [name] data
  | dir {entries sub : List (Node ν α)} {name : ν} {path : List ν} {data : α}
      (h : .dir name sub ∈ entries) (hsub : Holds sub path data) :
      Holds entries (name :: path) data

theorem Holds.mono {entries entries' : List (Node ν α)} {path : List ν} {data : α}
    (h : Holds entries path data) (hsub : entries ⊆ entries') : Holds entries' path data := by
  cases h with
  | leaf h => exact .leaf (hsub h)
  | dir h hbelow => exact .dir (hsub h) hbelow

mutual

theorem Node.holds_of_mem_walk {path : List ν} {data : α} :
    ∀ {entry : Node ν α}, (path, data) ∈ entry.walk → Holds [entry] path data
  | .leaf name _, h => by
    rw [Node.walk, List.mem_singleton, Prod.mk.injEq] at h
    obtain ⟨rfl, rfl⟩ := h
    exact .leaf List.mem_cons_self
  | .dir name entries, h => by
    rw [Node.walk, List.mem_map] at h
    obtain ⟨⟨below, data'⟩, hbelow, heq⟩ := h
    obtain ⟨rfl, rfl⟩ := Prod.mk.inj heq
    exact .dir List.mem_cons_self (holds_of_mem_walk hbelow)

theorem holds_of_mem_walk {path : List ν} {data : α} :
    ∀ {entries : List (Node ν α)}, (path, data) ∈ walk entries → Holds entries path data
  | [], h => by cases h
  | entry :: entries, h => by
    rw [walk, List.mem_append] at h
    rcases h with h | h
    · exact (Node.holds_of_mem_walk h).mono (List.cons_subset_cons entry (List.nil_subset _))
    · exact (holds_of_mem_walk h).mono (List.subset_cons_self ..)

end

theorem mem_walk_of_mem {entry : Node ν α} {entries : List (Node ν α)} {w : List ν × α}
    (hentry : entry ∈ entries) (hw : w ∈ entry.walk) : w ∈ walk entries := by
  induction entries with
  | nil => cases hentry
  | cons first entries ih =>
    rw [walk, List.mem_append]
    rcases List.mem_cons.mp hentry with rfl | hrest
    · exact .inl hw
    · exact .inr (ih hrest)

/-- The leaves listed are the leaves there are. -/
theorem mem_walk_iff {entries : List (Node ν α)} {path : List ν} {data : α} :
    (path, data) ∈ walk entries ↔ Holds entries path data := by
  refine ⟨holds_of_mem_walk, fun h => ?_⟩
  induction h with
  | leaf h => exact mem_walk_of_mem h (by simp [Node.walk])
  | dir h _ ih => exact mem_walk_of_mem h (by simpa [Node.walk] using ih)

theorem ne_nil_of_mem_walk {entries : List (Node ν α)} {w : List ν × α} (h : w ∈ walk entries) :
    w.1 ≠ [] := by
  have hholds := mem_walk_iff.mp (show (w.1, w.2) ∈ walk entries from h)
  generalize w.1 = path at hholds
  cases hholds <;> exact List.cons_ne_nil _ _

/-! ### The search -/

variable [DecidableEq ν] {target : ν}

mutual

/-- The search in an entry. -/
def Node.search (target : ν) : Node ν α → Option (List ν)
  | .leaf name _ => if name = target then some [name] else none
  | .dir name entries => (search target entries).map (name :: ·)

/-- The search in a directory: what is below an entry comes before the next entry. -/
def search (target : ν) : List (Node ν α) → Option (List ν)
  | [] => none
  | entry :: entries => (entry.search target).or (search target entries)

end

/-- Whether a leaf has the name. -/
def named (target : ν) (w : List ν × α) : Bool := decide (w.1.getLast? = some target)

/-- The name of a leaf is the same from further up. -/
theorem find?_map_cons {name : ν} {ws : List (List ν × α)} (hne : ∀ w ∈ ws, w.1 ≠ []) :
    ((ws.map fun w => (name :: w.1, w.2)).find? (named target))
      = (ws.find? (named target)).map fun w => (name :: w.1, w.2) := by
  induction ws with
  | nil => rfl
  | cons w ws ih =>
    have hnamed : named target (name :: w.1, w.2) = named target w := by
      obtain ⟨first, rest, hw⟩ := List.exists_cons_of_ne_nil (hne w List.mem_cons_self)
      simp [named, hw, List.getLast?_cons]
    rw [List.map_cons, List.find?_cons, List.find?_cons, hnamed, ih fun w hw => hne w (.tail _ hw)]
    cases named target w <;> rfl

mutual

theorem Node.search_eq :
    ∀ entry : Node ν α, entry.search target
      = (entry.walk.find? (named target)).map Prod.fst
  | .leaf name _ => by
    rw [Node.search, Node.walk, List.find?_singleton]
    simp only [named, List.getLast?_singleton, Option.some.injEq, decide_eq_true_eq]
    split_ifs <;> rfl
  | .dir name entries => by
    rw [Node.search, Node.walk, search_eq entries, find?_map_cons fun _ => ne_nil_of_mem_walk,
      Option.map_map, Option.map_map]
    rfl

/-- **The search finds the first leaf of the name.** -/
theorem search_eq : ∀ entries : List (Node ν α), search target entries
      = ((walk entries).find? (named target)).map Prod.fst
  | [] => rfl
  | entry :: entries => by
    rw [search, walk, Node.search_eq entry, search_eq entries, List.find?_append, Option.map_or]

end

variable {entries : List (Node ν α)}

/-- What is found is a leaf of the name. -/
theorem holds_of_search {path : List ν} (h : search target entries = some path) :
    ∃ data, Holds entries path data ∧ path.getLast? = some target := by
  rw [search_eq] at h
  obtain ⟨w, hw, rfl⟩ := Option.map_eq_some_iff.mp h
  have hnamed := List.find?_some hw
  exact ⟨w.2, mem_walk_iff.mp (List.mem_of_find?_eq_some hw), of_decide_eq_true hnamed⟩

/-- **A leaf is found if there is one.** -/
theorem search_isSome_iff : (search target entries).isSome = true ↔
    ∃ path data, Holds entries path data ∧ path.getLast? = some target := by
  rw [search_eq, Option.isSome_map, List.find?_isSome]
  constructor
  · rintro ⟨⟨path, data⟩, hw, hnamed⟩
    exact ⟨path, data, mem_walk_iff.mp hw, of_decide_eq_true hnamed⟩
  · rintro ⟨path, data, hholds, hnamed⟩
    exact ⟨(path, data), mem_walk_iff.mpr hholds, decide_eq_true hnamed⟩

end DirectoryTree
