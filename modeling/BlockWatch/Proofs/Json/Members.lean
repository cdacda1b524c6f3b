import BlockWatch.Json.Parser
import BlockWatch.Table
import Mathlib.Data.List.Induction
import Mathlib.Data.List.Sort
import Mathlib.Data.String.Basic

/-!
# Members of objects

Normative source: SPEC_FULL.md, section 3, for the "remaining opaque RPC fields" that a transaction
carries through unchanged.

An object that is made of a list of members has under every key the last member of the list with
that key (`member?_ofMembers`), although it keeps its members in another order: ascending by their
keys.  Ascending members are determined by their look-ups (`eq_of_lookup`), which is how two objects
are shown to be equal.  The members of every object in a text that is read are ascending
(`ascending_of_parse?`); the proof is by induction over the readers of `Json.Parser`.
-/

set_option autoImplicit false

namespace BlockWatch.Json

theorem lookup_insertMember (key : String) (value : Json) (members : List (String × Json))
    (k : String) :
    (insertMember key value members).lookup k =
      if k = key then some value else members.lookup k := by
  induction members with
  | nil => exact Table.lookup_cons k (key, value) []
  | cons member rest ih =>
      obtain ⟨other, present⟩ := member
      unfold insertMember
      split
      · rename_i hsame
        rw [Table.lookup_cons, Table.lookup_cons, ← hsame]
        split <;> rfl
      · rename_i hother
        split
        · rw [Table.lookup_cons]
        · rw [Table.lookup_cons, Table.lookup_cons, ih]
          by_cases hk : k = key
          · have hne : k ≠ other := fun h => hother (hk.symm.trans h)
            rw [if_neg hne, if_pos hk, if_pos hk]
          · rw [if_neg hk, if_neg hk]

/-- Of several members under one key the object has the last one. -/
theorem member?_ofMembers (members : List (String × Json)) (key : String) :
    (ofMembers members).member? key = members.reverse.lookup key := by
  show (orderMembers members).lookup key = _
  induction members using List.reverseRecOn with
  | nil => rfl
  | append_singleton members member ih =>
      rw [orderMembers, List.foldl_append, List.reverse_append]
      exact (lookup_insertMember ..).trans (ih ▸ (Table.lookup_cons ..).symm)

theorem lookup_orderMembers (members : List (String × Json)) (key : String) :
    (orderMembers members).lookup key = members.reverse.lookup key :=
  member?_ofMembers members key

/-! ## Order -/

/-- Members in ascending order of their keys, no key twice: how objects keep them. -/
def Ascending (members : List (String × Json)) : Prop :=
  members.Pairwise fun first second => first.1 < second.1

theorem mem_insertMember {key : String} {value : Json} {member : String × Json}
    {members : List (String × Json)} (h : member ∈ insertMember key value members) :
    member = (key, value) ∨ member ∈ members := by
  induction members with
  | nil => exact .inl (List.mem_singleton.mp h)
  | cons present rest ih =>
      unfold insertMember at h
      split at h
      · rw [List.mem_cons] at h
        exact h.imp_right (List.mem_cons_of_mem _)
      · split at h
        · exact List.mem_cons.mp h
        · rcases List.mem_cons.mp h with rfl | hrest
          · exact .inr List.mem_cons_self
          · exact (ih hrest).imp_right (List.mem_cons_of_mem _)

theorem ascending_insertMember {members : List (String × Json)} (h : Ascending members)
    (key : String) (value : Json) : Ascending (insertMember key value members) := by
  induction members with
  | nil => exact List.pairwise_singleton _ _
  | cons present rest ih =>
      obtain ⟨hfirst, hrest⟩ := List.pairwise_cons.mp h
      unfold insertMember
      split
      · rename_i hsame
        exact List.pairwise_cons.mpr ⟨hsame ▸ hfirst, hrest⟩
      · rename_i hother
        split
        · rename_i hlt
          refine List.pairwise_cons.mpr ⟨?_, h⟩
          exact List.forall_mem_cons.mpr ⟨hlt, fun member hmember =>
            lt_trans hlt (hfirst member hmember)⟩
        · rename_i hnotLt
          refine List.pairwise_cons.mpr ⟨fun member hmember => ?_, ih hrest⟩
          rcases mem_insertMember hmember with rfl | hmember
          · exact lt_of_le_of_ne (not_lt.mp hnotLt) (Ne.symm hother)
          · exact hfirst member hmember

theorem ascending_orderMembers (members : List (String × Json)) :
    Ascending (orderMembers members) := by
  induction members using List.reverseRecOn with
  | nil => exact List.Pairwise.nil
  | append_singleton members member ih =>
      rw [orderMembers, List.foldl_append]
      exact ascending_insertMember ih member.1 member.2

theorem Ascending.nodup {members : List (String × Json)} (h : Ascending members) :
    (Table.keys ⟨members⟩).Nodup :=
  List.pairwise_map.mpr (h.imp fun hlt => ne_of_lt hlt)

/-- Ascending members are determined by their look-ups. -/
theorem eq_of_lookup {members others : List (String × Json)} (h : Ascending members)
    (ho : Ascending others) (same : ∀ key, members.lookup key = others.lookup key) :
    members = others := by
  have : Std.Antisymm fun first second : String × Json => first.1 < second.1 :=
    ⟨fun _ _ hlt hgt => absurd hlt (lt_asymm hgt)⟩
  have : Std.Irrefl fun first second : String × Json => first.1 < second.1 :=
    ⟨fun member => lt_irrefl member.1⟩
  refine h.eq_of_mem_iff ho fun member => ?_
  have hmember : member ∈ members ↔ members.lookup member.1 = some member.2 :=
    Table.mem_entries_iff h.nodup
  have hother : member ∈ others ↔ others.lookup member.1 = some member.2 :=
    Table.mem_entries_iff ho.nodup
  rw [hmember, hother, same]

theorem insertMember_of_forall_lt {members : List (String × Json)} {key : String}
    (h : ∀ member ∈ members, member.1 < key) (value : Json) :
    insertMember key value members = members ++ [(key, value)] := by
  induction members with
  | nil => rfl
  | cons member rest ih =>
      obtain ⟨hfirst, hrest⟩ := List.forall_mem_cons.mp h
      rw [insertMember, if_neg (ne_of_gt hfirst), if_neg (lt_asymm hfirst), ih hrest]
      rfl

theorem orderMembers_of_ascending {members : List (String × Json)} (h : Ascending members) :
    orderMembers members = members := by
  induction members using List.reverseRecOn with
  | nil => rfl
  | append_singleton members member ih =>
      obtain ⟨hfront, -, hlast⟩ := List.pairwise_append.mp h
      have hordered : orderMembers members = members := ih hfront
      rw [orderMembers, List.foldl_append]
      refine Eq.trans (congrArg (insertMember member.1 member.2) hordered) ?_
      exact insertMember_of_forall_lt (fun first hfirst => hlast first hfirst member
        (List.mem_singleton_self member)) member.2

theorem lookup_filter (keep : String → Bool) (members : List (String × Json)) (key : String) :
    (members.filter fun member => keep member.1).lookup key =
      if keep key then members.lookup key else none := by
  induction members with
  | nil => simp
  | cons member rest ih =>
      rw [List.filter_cons, Table.lookup_cons]
      by_cases hkey : key = member.1
      · subst hkey
        by_cases hkeep : keep member.1 = true
        · simp [hkeep, Table.lookup_cons]
        · simp [hkeep, ih]
      · by_cases hkeep : keep member.1 = true
        · rw [if_pos hkeep, Table.lookup_cons, if_neg hkey, if_neg hkey, ih]
        · rw [if_neg hkeep, if_neg hkey, ih]

/-! ## Objects that are read -/

/-- The members of every object that is read are ascending. -/
theorem ascending_readMembers (fuel : Nat) :
    ∀ {depth : Nat} {read members : List (String × Json)} {input rest : List Char},
      Ascending read → readMembers fuel depth read input = some (members, rest) →
        Ascending members := by
  induction fuel with
  | zero =>
      intro depth read members input rest _ h
      rw [readMembers] at h
      cases h
  | succ fuel ih =>
      intro depth read members input rest hread h
      rw [readMembers] at h
      split at h
      · split at h
        · cases h
        · rename_i key _ _
          split at h
          · split at h
            · cases h
            · rename_i value _ _
              have hnext := ascending_insertMember hread key value
              split at h
              · exact ih hnext h
              · cases h
                exact hnext
              · cases h
          · cases h
      · cases h

/-- The members of every object in a text that is read are ascending. -/
theorem ascending_of_parse? {text : String} {members : List (String × Json)}
    (h : parse? text = some (.object members)) : Ascending members := by
  have hvalue : ∀ {fuel depth : Nat} {input rest : List Char},
      readValue fuel depth input = some (.object members, rest) → Ascending members := by
    intro fuel depth input rest hread
    cases fuel with
    | zero =>
        rw [readValue] at hread
        cases hread
    | succ fuel =>
        rw [readValue] at hread
        split at hread
        · cases hread
        · simp at hread
        · simp at hread
        · simp at hread
        · simp at hread
        · split at hread
          · cases hread
          · split at hread
            · cases hread
            · simp at hread
        · split at hread
          · cases hread
          · split at hread
            · cases hread
              exact List.Pairwise.nil
            · simp only [Option.map_eq_some_iff, Prod.exists, Prod.mk.injEq, object.injEq] at hread
              obtain ⟨_, _, hmembers, rfl, -⟩ := hread
              exact ascending_readMembers fuel List.Pairwise.nil hmembers
        · simp at hread
  rw [parse?] at h
  split at h
  · rename_i value rest hread
    split at h
    · obtain rfl := Option.some.inj h
      exact hvalue hread
    · cases h
  · cases h

end BlockWatch.Json
