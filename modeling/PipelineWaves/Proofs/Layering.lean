import PipelineWaves.Dictionary

/-!
# Layered dictionaries

What is found in a dictionary that others are laid over: the entry of the topmost
layer that has one. A dictionary is known by its look-ups, so layers may be put
together in any grouping.
-/

set_option autoImplicit false

namespace PipelineWaves

theorem lookup_none_of_below {Value : Type} {wanted : String} {entries : List (String × Value)}
    (below : ∀ entry ∈ entries, wanted < entry.1) : entries.lookup wanted = none := by
  rw [List.lookup_eq_none_iff]
  intro entry member
  simpa using fun same : wanted = entry.1 => String.lt_irrefl _ (same ▸ below entry member)

/-- The order in which distinct keys stand does not matter to a look-up. -/
theorem lookup_reverse {Value : Type} (wanted : String) {entries : List (String × Value)}
    (ascending : Ascending entries) :
    entries.reverse.lookup wanted = entries.lookup wanted := by
  induction entries with
  | nil => rfl
  | cons entry rest induction =>
      obtain ⟨firstBelow, ascendingRest⟩ := List.pairwise_cons.1 ascending
      rw [List.reverse_cons, List.lookup_append, induction ascendingRest, lookup_cons_eq_if,
        lookup_cons_eq_if, List.lookup_nil]
      split
      · rename_i same
        rw [lookup_none_of_below (same ▸ firstBelow), Option.none_or]
      · rw [Option.or_none]

theorem entries_eq_of_lookup {Value : Type} {left right : List (String × Value)}
    (leftAscending : Ascending left) (rightAscending : Ascending right)
    (same : ∀ wanted, left.lookup wanted = right.lookup wanted) : left = right := by
  induction left generalizing right with
  | nil =>
      cases right with
      | nil => rfl
      | cons entry rest =>
          have found := same entry.1
          rw [List.lookup_cons_self] at found
          cases found
  | cons entry rest induction =>
      cases right with
      | nil =>
          have found := same entry.1
          rw [List.lookup_cons_self] at found
          cases found
      | cons other others =>
          obtain ⟨below, ascendingRest⟩ := List.pairwise_cons.1 leftAscending
          obtain ⟨otherBelow, ascendingOthers⟩ := List.pairwise_cons.1 rightAscending
          obtain ⟨key, value⟩ := entry
          obtain ⟨otherKey, otherValue⟩ := other
          -- The smaller of two different first keys is missing on the other side.
          have sameKey : key = otherKey := by
            apply Classical.byContradiction
            intro different
            rcases Decidable.em (key < otherKey) with less | notLess
            · have found := same key
              rw [lookup_cons_eq_if, if_pos rfl, lookup_cons_eq_if, if_neg different,
                lookup_none_of_below fun entry member =>
                  String.lt_trans less (otherBelow entry member)] at found
              cases found
            · have greater : otherKey < key := Std.lt_of_le_of_ne notLess (Ne.symm different)
              have found := same otherKey
              rw [lookup_cons_eq_if, if_neg (Ne.symm different), lookup_cons_eq_if, if_pos rfl,
                lookup_none_of_below fun entry member =>
                  String.lt_trans greater (below entry member)] at found
              cases found
          subst sameKey
          have sameValue : value = otherValue := by
            simpa [lookup_cons_eq_if] using same key
          subst sameValue
          congr 1
          apply induction ascendingRest ascendingOthers
          intro wanted
          by_cases isFirst : wanted = key
          · rw [lookup_none_of_below (isFirst ▸ below), lookup_none_of_below (isFirst ▸ otherBelow)]
          · simpa [lookup_cons_eq_if, isFirst] using same wanted

namespace Dictionary

variable {Value Other : Type}

theorem ext {left right : Dictionary Value} (same : ∀ key, left.get? key = right.get? key) :
    left = right := by
  obtain ⟨leftEntries, leftAscending⟩ := left
  obtain ⟨rightEntries, rightAscending⟩ := right
  obtain rfl := entries_eq_of_lookup leftAscending rightAscending same
  rfl

theorem get?_insertAll (dictionary : Dictionary Value) (entries : List (String × Value))
    (key : String) :
    (entries.foldl (fun dictionary entry => dictionary.insert entry.1 entry.2) dictionary).get? key
      = (entries.reverse.lookup key).or (dictionary.get? key) := by
  induction entries generalizing dictionary with
  | nil => rfl
  | cons entry rest induction =>
      rw [List.foldl_cons, induction, get?_insert, List.reverse_cons,
        List.lookup_append, lookup_cons_eq_if, List.lookup_nil]
      cases rest.reverse.lookup key with
      | some value => rfl
      | none => split <;> rfl

/-- The last entry of a key counts. -/
theorem get?_ofList (entries : List (String × Value)) (key : String) :
    (ofList entries).get? key = entries.reverse.lookup key := by
  rw [ofList, get?_insertAll, get?_empty, Option.or_none]

theorem get?_overlay (below above : Dictionary Value) (key : String) :
    (below.overlay above).get? key = (above.get? key).or (below.get? key) := by
  rw [overlay, get?_insertAll, lookup_reverse key above.ascending]
  rfl

theorem contains_overlay (below above : Dictionary Value) (key : String) :
    (below.overlay above).contains key = (above.contains key || below.contains key) := by
  rw [contains, get?_overlay, contains, contains]
  cases above.get? key <;> rfl

theorem overlay_assoc (base middle top : Dictionary Value) :
    (base.overlay middle).overlay top = base.overlay (middle.overlay top) := by
  apply ext
  intro key
  rw [get?_overlay, get?_overlay, get?_overlay, get?_overlay, Option.or_assoc]

/-- Reading the entries of a dictionary gives the dictionary back. -/
theorem ofList_entries (dictionary : Dictionary Value) :
    ofList dictionary.entries = dictionary := by
  apply ext
  intro key
  rw [get?_ofList, lookup_reverse key dictionary.ascending]
  rfl

theorem get?_mapValues (change : Value → Other) (dictionary : Dictionary Value) (key : String) :
    (dictionary.mapValues change).get? key = (dictionary.get? key).map change := by
  change (dictionary.entries.map (Prod.map id change)).lookup key =
    (dictionary.entries.lookup key).map change
  induction dictionary.entries with
  | nil => rfl
  | cons entry rest induction =>
      rw [List.map_cons, Prod.map, lookup_cons_eq_if, lookup_cons_eq_if, induction, id]
      split <;> rfl

end Dictionary

end PipelineWaves
