import Mathlib.Order.Lattice
import Mathlib.Data.List.Basic

/-!
# Entries in the order of their keys

Some entries of a list have a key.  Where the keys increase along the list, an
entry stands before another one exactly if its key is smaller.
-/

namespace KeyOrder

variable {Entry : Type u} {Key : Type v}

/-- An entry with the first key stands before one with the second. -/
def Precedes (key : Entry → Option Key) (entries : List Entry)
    (first second : Key) : Prop :=
  ∃ before firstEntry between secondEntry after,
    entries = before ++ firstEntry :: (between ++ secondEntry :: after) ∧
    key firstEntry = some first ∧ key secondEntry = some second

variable [LinearOrder Key]

def Increasing (key : Entry → Option Key) (entries : List Entry) : Prop :=
  (entries.filterMap key).Pairwise (· < ·)

omit [LinearOrder Key] in
/-- Entries without a key do not count. -/
theorem filterMap_append_keyless {key : Entry → Option Key}
    {entries more : List Entry} (keyless : ∀ entry ∈ more, key entry = none) :
    (entries ++ more).filterMap key = entries.filterMap key := by
  rw [List.filterMap_append, List.filterMap_eq_nil_iff.mpr keyless,
    List.append_nil]

omit [LinearOrder Key] in
theorem filterMap_append_keyed {key : Entry → Option Key}
    {entries : List Entry} {entry : Entry} {new : Key}
    (keyed : key entry = some new) :
    (entries ++ [entry]).filterMap key = entries.filterMap key ++ [new] := by
  rw [List.filterMap_append, List.filterMap_cons_some keyed,
    List.filterMap_nil]

/-- The new entry has the largest key. -/
theorem Increasing.append {key : Entry → Option Key}
    {entries : List Entry} {entry : Entry} {new : Key}
    (increasing : Increasing key entries) (keyed : key entry = some new)
    (largest : ∀ old ∈ entries.filterMap key, old < new) :
    Increasing key (entries ++ [entry]) := by
  rw [Increasing, filterMap_append_keyed keyed, List.pairwise_append]
  refine ⟨increasing, List.pairwise_singleton .., ?_⟩
  intro old member other single
  rw [List.mem_singleton.mp single]
  exact largest old member

/-- Where keys increase, their order is that of the entries. -/
theorem precedes_iff_lt {key : Entry → Option Key} {entries : List Entry}
    (increasing : Increasing key entries) {first second : Key}
    (firstMember : first ∈ entries.filterMap key)
    (secondMember : second ∈ entries.filterMap key) :
    Precedes key entries first second ↔ first < second := by
  constructor
  · rintro ⟨before, firstEntry, between, secondEntry, after, rfl, firstKey,
      secondKey⟩
    rw [Increasing, List.filterMap_append, List.pairwise_append] at increasing
    have tail := increasing.2.1
    rw [List.filterMap_cons_some firstKey, List.pairwise_cons] at tail
    apply tail.1 second
    rw [List.filterMap_append, List.filterMap_cons_some secondKey]
    exact List.mem_append_right _ (List.mem_cons_self ..)
  · intro less
    obtain ⟨firstEntry, member, firstKey⟩ := List.mem_filterMap.mp firstMember
    obtain ⟨secondEntry, member', secondKey⟩ :=
      List.mem_filterMap.mp secondMember
    obtain ⟨before, after, rfl⟩ := List.append_of_mem member
    rw [Increasing, List.filterMap_append, List.pairwise_append] at increasing
    obtain ⟨_, _, earlier⟩ := increasing
    have here : first ∈ (firstEntry :: after).filterMap key :=
      List.mem_filterMap.mpr ⟨firstEntry, List.mem_cons_self .., firstKey⟩
    rcases List.mem_append.mp member' with inFront | behind
    · have found : second ∈ before.filterMap key :=
        List.mem_filterMap.mpr ⟨secondEntry, inFront, secondKey⟩
      exact absurd (earlier second found first here) (lt_asymm less)
    · rcases List.mem_cons.mp behind with rfl | inRest
      · rw [firstKey] at secondKey
        exact absurd (Option.some.inj secondKey) (ne_of_lt less)
      · obtain ⟨between, rest, rfl⟩ := List.append_of_mem inRest
        exact ⟨before, firstEntry, between, secondEntry, rest, rfl, firstKey,
          secondKey⟩

end KeyOrder
