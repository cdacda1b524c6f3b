import BlockWatch.Roster
import Mathlib.Data.List.Induction
import Mathlib.Data.List.Nodup

/-!
# Rosters have no repetition

Normative source: SPEC_FULL.md, section 4.2:

    `Subscribe(address)`: idempotent add to the unique ordered set.

Adding and removing keep a roster free of repetition.  The roster of a list has the addresses in the
order in which each came first (`ofList_eq_eraseDups`), and adding the roster of a list is adding
the list (`foldl_add_ofList`), so it makes no difference whether addresses are collected before they
are subscribed.
-/

set_option autoImplicit false

namespace BlockWatch.Roster

/-! ## Adding -/

theorem nodup_add {roster : List String} (h : roster.Nodup) (address : String) :
    (add roster address).Nodup := by
  unfold add
  split
  · exact h
  · rename_i hnew
    have hnotMem : address ∉ roster := by simpa using hnew
    exact List.concat_eq_append ▸ h.concat hnotMem

theorem add_of_mem {roster : List String} {address : String} (h : address ∈ roster) :
    add roster address = roster :=
  if_pos (List.contains_iff_mem.mpr h)

theorem add_of_not_mem {roster : List String} {address : String} (h : address ∉ roster) :
    add roster address = roster ++ [address] :=
  if_neg (mt List.contains_iff_mem.mp h)

/-- The roster of a list has each address at its first place only. -/
theorem ofList_eq_eraseDups (addresses : List String) : ofList addresses = addresses.eraseDups := by
  unfold ofList
  induction addresses using List.reverseRecOn with
  | nil => rfl
  | append_singleton rest address ih =>
      rw [List.foldl_concat, ih, List.eraseDups_append]
      by_cases h : address ∈ rest
      · rw [add_of_mem (List.mem_eraseDups.mpr h)]
        simp [List.removeAll, h]
      · rw [add_of_not_mem (mt List.mem_eraseDups.mp h)]
        simp [List.removeAll, h, List.eraseDups_cons]

theorem nodup_ofList (addresses : List String) : (ofList addresses).Nodup := by
  unfold ofList
  induction addresses using List.reverseRecOn with
  | nil => exact List.nodup_nil
  | append_singleton rest address ih =>
      rw [List.foldl_concat]
      exact nodup_add ih address

theorem mem_foldl_add {address : String} {addresses : List String} :
    ∀ {roster : List String}, address ∈ addresses.foldl add roster ↔
      address ∈ roster ∨ address ∈ addresses := by
  induction addresses with
  | nil => simp
  | cons first rest ih =>
      intro roster
      rw [List.foldl_cons, ih, List.mem_cons]
      by_cases h : first ∈ roster
      · rw [add_of_mem h]
        constructor
        · exact Or.imp_right .inr
        · rintro (hroster | rfl | hrest)
          · exact .inl hroster
          · exact .inl h
          · exact .inr hrest
      · rw [add_of_not_mem h, List.mem_append, List.mem_singleton, or_assoc]

theorem foldl_add_ofList (roster addresses : List String) :
    (ofList addresses).foldl add roster = addresses.foldl add roster := by
  induction addresses using List.reverseRecOn with
  | nil => rfl
  | append_singleton rest address ih =>
      have hlast : ofList (rest ++ [address]) = add (ofList rest) address := List.foldl_concat ..
      rw [hlast, List.foldl_concat, ← ih]
      by_cases h : address ∈ ofList rest
      · rw [add_of_mem h, add_of_mem (mem_foldl_add.mpr (.inr h))]
      · rw [add_of_not_mem h, List.foldl_concat]

/-- Repetitions within the end of a list do not matter to the whole. -/
theorem eraseDups_append_eraseDups (front back : List String) :
    (front ++ back.eraseDups).eraseDups = (front ++ back).eraseDups := by
  simp only [← ofList_eq_eraseDups]
  unfold ofList
  rw [List.foldl_append, List.foldl_append]
  exact foldl_add_ofList _ back

theorem ofList_of_nodup {addresses : List String} (h : addresses.Nodup) :
    ofList addresses = addresses := by
  unfold ofList
  induction addresses using List.reverseRecOn with
  | nil => rfl
  | append_singleton rest address ih =>
      obtain ⟨hrest, -, hnew⟩ := List.nodup_append.mp h
      rw [List.foldl_concat, ih hrest]
      exact add_of_not_mem fun hmem => hnew address hmem address (List.mem_singleton_self _) rfl

/-! ## Removing -/

theorem remove?_eq_some {roster rest : List String} {address : String}
    (h : remove? roster address = some rest) : rest = roster.erase address := by
  unfold remove? at h
  split at h
  · exact (Option.some.inj h).symm
  · cases h

/-- Removal fails exactly for an absent address. -/
theorem remove?_eq_none {roster : List String} {address : String}
    (h : remove? roster address = none) : roster.erase address = roster := by
  unfold remove? at h
  split at h
  · cases h
  · rename_i habsent
    exact List.erase_of_not_mem (by simpa using habsent)

end BlockWatch.Roster
