/-!
# Dictionaries

A dictionary holds one value per key and lists its keys in ascending order of
their code points. The order is part of the type, so two dictionaries with the
same look-ups are equal and every listing of one is already sorted.
-/

set_option autoImplicit false

namespace PipelineWaves

theorem lookup_cons_eq_if {Key Value : Type} [DecidableEq Key] (key wanted : Key) (value : Value)
    (entries : List (Key × Value)) :
    ((key, value) :: entries).lookup wanted =
      if wanted = key then some value else entries.lookup wanted := by
  rw [List.lookup_cons]
  by_cases same : wanted = key
  · simp [same]
  · simp [same, beq_eq_false_iff_ne.2 same]

/-- Inserts one entry into an ascending list, replacing an entry of the same key. -/
def insertAscending {Value : Type} (key : String) (value : Value) :
    List (String × Value) → List (String × Value)
  | [] => [(key, value)]
  | entry :: rest =>
      if key < entry.1 then (key, value) :: entry :: rest
      else if key = entry.1 then (key, value) :: rest
      else entry :: insertAscending key value rest

theorem mem_insertAscending {Value : Type} {key : String} {value : Value}
    {entry : String × Value} {entries : List (String × Value)}
    (member : entry ∈ insertAscending key value entries) :
    entry = (key, value) ∨ entry ∈ entries := by
  induction entries with
  | nil => simpa [insertAscending] using member
  | cons first rest ih =>
      rw [insertAscending] at member
      split at member
      · simpa using member
      · split at member
        · rcases List.mem_cons.1 member with same | later
          · exact Or.inl same
          · exact Or.inr (List.mem_cons_of_mem _ later)
        · rcases List.mem_cons.1 member with same | later
          · exact Or.inr (same ▸ List.mem_cons_self)
          · rcases ih later with same | old
            · exact Or.inl same
            · exact Or.inr (List.mem_cons_of_mem _ old)

def Ascending {Value : Type} (entries : List (String × Value)) : Prop :=
  entries.Pairwise fun left right => left.1 < right.1

theorem ascending_insertAscending {Value : Type} (key : String) (value : Value)
    {entries : List (String × Value)} (ascending : Ascending entries) :
    Ascending (insertAscending key value entries) := by
  induction entries with
  | nil => simp [insertAscending, Ascending]
  | cons first rest ih =>
      have tailAscending : Ascending rest := List.Pairwise.tail ascending
      have firstBelow : ∀ entry ∈ rest, first.1 < entry.1 :=
        (List.pairwise_cons.1 ascending).1
      rw [insertAscending]
      split
      · rename_i below
        refine List.pairwise_cons.2 ⟨?_, ascending⟩
        intro entry member
        rcases List.mem_cons.1 member with same | later
        · exact same ▸ below
        · exact String.lt_trans below (firstBelow entry later)
      · split
        · rename_i same
          refine List.pairwise_cons.2 ⟨?_, tailAscending⟩
          intro entry member
          exact same ▸ firstBelow entry member
        · rename_i notBelow different
          refine List.pairwise_cons.2 ⟨?_, ih tailAscending⟩
          intro entry member
          rcases mem_insertAscending member with same | old
          · rw [same]
            exact Std.lt_of_le_of_ne notBelow (Ne.symm different)
          · exact firstBelow entry old

/-- One value per key, keys ascending by code point. -/
structure Dictionary (Value : Type) where
  entries : List (String × Value)
  ascending : Ascending entries
deriving DecidableEq

namespace Dictionary

variable {Value Other : Type}

def empty : Dictionary Value := ⟨[], List.Pairwise.nil⟩

instance : EmptyCollection (Dictionary Value) := ⟨empty⟩

instance : Inhabited (Dictionary Value) := ⟨empty⟩

instance : Repr (Dictionary String) := ⟨fun dictionary _ => repr dictionary.entries⟩

def insert (dictionary : Dictionary Value) (key : String) (value : Value) : Dictionary Value :=
  ⟨insertAscending key value dictionary.entries,
    ascending_insertAscending key value dictionary.ascending⟩

def get? (dictionary : Dictionary Value) (key : String) : Option Value :=
  dictionary.entries.lookup key

/-- Inserts an entry unless its key has a value already. -/
def insertNew (dictionary : Dictionary Value) (key : String) (value : Value) : Dictionary Value :=
  if (dictionary.get? key).isSome then dictionary else dictionary.insert key value

/-- Of entries with one key, the last one stays. -/
def ofList (entries : List (String × Value)) : Dictionary Value :=
  entries.foldl (fun dictionary entry => dictionary.insert entry.1 entry.2) empty

def toList (dictionary : Dictionary Value) : List (String × Value) :=
  dictionary.entries

def contains (dictionary : Dictionary Value) (key : String) : Bool :=
  (dictionary.get? key).isSome

def size (dictionary : Dictionary Value) : Nat :=
  dictionary.entries.length

def keys (dictionary : Dictionary Value) : List String :=
  dictionary.entries.map Prod.fst

/-- The entries of both, where `above` wins over `below`. -/
def overlay (below above : Dictionary Value) : Dictionary Value :=
  above.entries.foldl (fun dictionary entry => dictionary.insert entry.1 entry.2) below

def mapValues (change : Value → Other) (dictionary : Dictionary Value) : Dictionary Other :=
  ⟨dictionary.entries.map (Prod.map id change), List.pairwise_map.2 dictionary.ascending⟩

theorem lookup_insertAscending (key wanted : String) (value : Value)
    (entries : List (String × Value)) :
    (insertAscending key value entries).lookup wanted =
      if wanted = key then some value else entries.lookup wanted := by
  induction entries with
  | nil => exact lookup_cons_eq_if key wanted value []
  | cons first rest ih =>
      obtain ⟨firstKey, firstValue⟩ := first
      rw [insertAscending]
      split
      · exact lookup_cons_eq_if key wanted value _
      · split
        · rename_i sameFirst
          dsimp only at sameFirst
          subst sameFirst
          rw [lookup_cons_eq_if, lookup_cons_eq_if]
          by_cases same : wanted = key <;> simp [same]
        · rename_i notBelow different
          dsimp only at different
          rw [lookup_cons_eq_if, lookup_cons_eq_if, ih]
          by_cases same : wanted = firstKey
          · subst same
            simp [Ne.symm different]
          · simp [same]

theorem get?_insert (dictionary : Dictionary Value) (key wanted : String) (value : Value) :
    (dictionary.insert key value).get? wanted =
      if wanted = key then some value else dictionary.get? wanted :=
  lookup_insertAscending key wanted value dictionary.entries

theorem get?_insertNew (dictionary : Dictionary Value) (key wanted : String) (value : Value) :
    (dictionary.insertNew key value).get? wanted =
      if wanted = key then (dictionary.get? key).or (some value) else dictionary.get? wanted := by
  rw [insertNew]
  by_cases same : wanted = key
  · subst same
    rw [if_pos rfl]
    cases known : dictionary.get? wanted <;> simp [known, get?_insert]
  · rw [if_neg same]
    split
    · rfl
    · rw [get?_insert, if_neg same]

theorem get?_empty (wanted : String) : (empty : Dictionary Value).get? wanted = none := rfl

end Dictionary

end PipelineWaves
