import Mathlib.Data.List.Sort
import Mathlib.Data.List.Perm.Subperm
import Mathlib.Data.Prod.Lex
import Mathlib.Data.String.Basic

/-!
# The first of a ranked collection

The members of a list have distinct keys in a linear order; the smaller key ranks first. The
top `n` are the first `n` in that order.

- `idxOf_ranked`: the place of a member is the number of members ahead of it;
- `mem_top_iff`: a member is among the top `n` when fewer than `n` members are ahead of it;
- `top_eq_top_iff`: two collections have the same top when what only one of them has is not in
  its top;
- `labels_top_eq_iff`: two tops have the same labels when each label that only one collection has
  is in both tops or in neither;
- `top_eq_iff`: **a copy that agrees on the top** shows the same top exactly when every member of
  the copy that is gone from the original has `n` members of the original ahead of it.
-/

namespace TraderStack.Lib

variable {α κ : Type*} [LinearOrder κ] (key : α → κ)

/-- The members in order of their keys. -/
def ranked (members : List α) : List α := members.insertionSort fun a b => key a ≤ key b

/-- The first `n` members. -/
def top (n : ℕ) (members : List α) : List α := (ranked key members).take n

/-- The members ahead of a key. -/
def ahead (members : List α) (k : κ) : List α := members.filter fun e => key e < k

variable {key} {members : List α} {n : ℕ}

/-- Members of two disjoint kinds are counted apart. -/
theorem countP_or_disjoint (p q : α → Prop) [DecidablePred p] [DecidablePred q]
    (hdisjoint : ∀ a, p a → ¬ q a) (l : List α) :
    l.countP (fun a => p a ∨ q a) = l.countP (fun a => p a) + l.countP (fun a => q a) := by
  induction l with
  | nil => rfl
  | cons a l ih =>
    rw [List.countP_cons, List.countP_cons, List.countP_cons, ih]
    by_cases hp : p a
    · have hq := hdisjoint a hp
      simp only [hp, hq, or_false, decide_true, decide_false, if_true, Bool.false_eq_true,
        if_false]
      omega
    · simp only [hp, false_or, decide_false, Bool.false_eq_true, if_false]
      omega

theorem perm_ranked (members : List α) : (ranked key members).Perm members :=
  List.perm_insertionSort _ _

theorem length_ahead_ranked (members : List α) (k : κ) :
    (ahead key (ranked key members) k).length = (ahead key members k).length :=
  ((perm_ranked members).filter _).length_eq

/-- Members with distinct keys are ranked strictly. -/
theorem pairwise_ranked (h : (members.map key).Nodup) :
    (ranked key members).Pairwise fun a b => key a < key b := by
  have hsorted : (ranked key members).Pairwise fun a b => key a ≤ key b :=
    List.pairwise_insertionSort _ members
  have hnodup : ((ranked key members).map key).Nodup :=
    ((perm_ranked members).map key).nodup_iff.mpr h
  have hne : (ranked key members).Pairwise fun a b => key a ≠ key b := List.pairwise_map.mp hnodup
  exact (hsorted.and hne).imp fun hab => lt_of_le_of_ne hab.1 hab.2

/-- The order of distinct keys does not depend on the order of the members. -/
theorem ranked_eq_of_perm {members' : List α} (h : (members.map key).Nodup)
    (hperm : members'.Perm members) : ranked key members' = ranked key members := by
  have h' : (members'.map key).Nodup := (hperm.map key).nodup_iff.mpr h
  have hranked : (ranked key members').Perm (ranked key members) :=
    ((perm_ranked members').trans hperm).trans (perm_ranked members).symm
  exact hranked.eq_of_pairwise (fun a b _ _ hab hba => absurd hba hab.not_gt)
    (pairwise_ranked h') (pairwise_ranked h)

theorem ranked_of_pairwise {l : List α} (h : l.Pairwise fun a b => key a ≤ key b) :
    ranked key l = l :=
  List.Pairwise.insertionSort_eq h

theorem pairwise_top (h : (members.map key).Nodup) :
    (top key n members).Pairwise fun a b => key a < key b :=
  (pairwise_ranked h).sublist (List.take_sublist _ _)

/-- The first of a ranked list has nobody ahead. -/
theorem ahead_first {l : List α} {e : α} (hfirst : ∀ b ∈ l, key e < key b) :
    ahead key (e :: l) (key e) = [] := by
  rw [ahead, List.filter_eq_nil_iff]
  intro b hb
  rcases List.mem_cons.mp hb with rfl | hb
  · simp
  · simpa using (hfirst b hb).le

/-- In a ranked list the place of a member is the number of those ahead of it. -/
theorem mem_take_iff {l : List α} (h : l.Pairwise fun a b => key a < key b) (n : ℕ) (e : α) :
    e ∈ l.take n ↔ e ∈ l ∧ (ahead key l (key e)).length < n := by
  induction l generalizing n with
  | nil => simp
  | cons a l ih =>
    obtain ⟨hfirst, hrest⟩ := List.pairwise_cons.mp h
    cases n with
    | zero => simp
    | succ n =>
      rw [List.take_succ_cons, List.mem_cons, List.mem_cons, ih hrest]
      constructor
      · rintro (rfl | ⟨hmem, hlt⟩)
        · -- the first has nobody ahead
          refine ⟨.inl rfl, ?_⟩
          rw [ahead_first hfirst, List.length_nil]
          exact Nat.succ_pos n
        · refine ⟨.inr hmem, ?_⟩
          have hahead : ahead key (a :: l) (key e) = a :: ahead key l (key e) :=
            List.filter_cons_of_pos (by simpa using hfirst e hmem)
          rw [hahead, List.length_cons]
          omega
      · rintro ⟨rfl | hmem, hlt⟩
        · exact .inl rfl
        · have hahead : ahead key (a :: l) (key e) = a :: ahead key l (key e) :=
            List.filter_cons_of_pos (by simpa using hfirst e hmem)
          rw [hahead, List.length_cons] at hlt
          exact .inr ⟨hmem, by omega⟩

/-- **The top `n`** are the members with fewer than `n` ahead of them. -/
theorem mem_top_iff (h : (members.map key).Nodup) {e : α} :
    e ∈ top key n members ↔ e ∈ members ∧ (ahead key members (key e)).length < n := by
  rw [top, mem_take_iff (pairwise_ranked h), (perm_ranked members).mem_iff, length_ahead_ranked]

/-- In a ranked list the index of a member is the number of those ahead of it. -/
theorem idxOf_of_pairwise [DecidableEq α] {l : List α}
    (h : l.Pairwise fun a b => key a < key b) {e : α} (he : e ∈ l) :
    l.idxOf e = (ahead key l (key e)).length := by
  induction l with
  | nil => simp at he
  | cons a l ih =>
    obtain ⟨hfirst, hrest⟩ := List.pairwise_cons.mp h
    rcases List.mem_cons.mp he with rfl | hmem
    · rw [ahead_first hfirst, List.idxOf_cons_self, List.length_nil]
    · have hne : a ≠ e := by
        rintro rfl
        exact lt_irrefl _ (hfirst a hmem)
      have hahead : ahead key (a :: l) (key e) = a :: ahead key l (key e) :=
        List.filter_cons_of_pos (by simpa using hfirst e hmem)
      rw [List.idxOf_cons_ne _ hne, hahead, List.length_cons, ih hrest hmem]

/-- **The place of a member** in the ranking is the number of members ahead of it. -/
theorem idxOf_ranked [DecidableEq α] (h : (members.map key).Nodup) {e : α} (he : e ∈ members) :
    (ranked key members).idxOf e = (ahead key members (key e)).length := by
  rw [idxOf_of_pairwise (pairwise_ranked h) ((perm_ranked members).mem_iff.mpr he),
    length_ahead_ranked]

theorem mem_of_mem_top {e : α} (h : e ∈ top key n members) : e ∈ members :=
  (perm_ranked members).mem_iff.mp (List.mem_of_mem_take h)

/-- With `n` members ahead of a key, the top `n` are all ahead of it. -/
theorem top_ahead (h : (members.map key).Nodup) {k : κ}
    (hk : n ≤ (ahead key members k).length) :
    (top key n members).length = n ∧ ∀ e ∈ top key n members, key e < k := by
  constructor
  · have hle : (ahead key members k).length ≤ members.length := List.length_filter_le _ _
    have hlen : (ranked key members).length = members.length := (perm_ranked members).length_eq
    rw [top, List.length_take, hlen]
    omega
  · intro e he
    obtain ⟨-, hlt⟩ := (mem_top_iff h).mp he
    by_contra hge
    have hmono : (ahead key members k).Sublist (ahead key members (key e)) := by
      refine List.monotone_filter_right members fun b hb => ?_
      have hbk : key b < k := by simpa using hb
      simpa using lt_of_lt_of_le hbk (not_lt.mp hge)
    have := hmono.length_le
    omega

/-- So many members with keys of the collection are ahead of a key: so many of the collection
are. -/
theorem le_ahead {l : List α} {k : κ} (hl : (l.map key).Nodup)
    (h : ∀ e ∈ l, key e ∈ members.map key ∧ key e < k) :
    l.length ≤ (ahead key members k).length := by
  have hsub : l.map key ⊆ (ahead key members k).map key := by
    intro x hx
    obtain ⟨e, he, rfl⟩ := List.mem_map.mp hx
    obtain ⟨hmem, hlt⟩ := h e he
    obtain ⟨f, hf, hfe⟩ := List.mem_map.mp hmem
    refine List.mem_map.mpr ⟨f, List.mem_filter.mpr ⟨hf, ?_⟩, hfe⟩
    rw [hfe]
    simpa using hlt
  have hle := (hl.subperm hsub).length_le
  rwa [List.length_map, List.length_map] at hle

theorem nodup_keys_top (h : (members.map key).Nodup) : ((top key n members).map key).Nodup := by
  have hpair := pairwise_top (n := n) h
  exact List.pairwise_map.mpr (hpair.imp fun hab => hab.ne)

/-- The top is known by its members. -/
theorem top_ext {members' : List α} (h : (members.map key).Nodup) (h' : (members'.map key).Nodup)
    (hmem : ∀ e, e ∈ top key n members ↔ e ∈ top key n members') :
    top key n members = top key n members' := by
  have hnd : (top key n members).Nodup := (nodup_keys_top h).of_map key
  have hnd' : (top key n members').Nodup := (nodup_keys_top h').of_map key
  have hperm := (List.perm_ext_iff_of_nodup hnd hnd').mpr hmem
  exact hperm.eq_of_pairwise (fun a b _ _ hab hba => absurd hba hab.not_gt)
    (pairwise_top h) (pairwise_top h')

/-- A member of one top is in the other, when neither collection has one of its own in its top. -/
theorem mem_top_of_mem_top {members' : List α} (h : (members.map key).Nodup)
    (h' : (members'.map key).Nodup)
    (hleft : ∀ e ∈ members, e ∉ members' → n ≤ (ahead key members (key e)).length)
    (hright : ∀ e ∈ members', e ∉ members → n ≤ (ahead key members' (key e)).length) {e : α}
    (he : e ∈ top key n members) : e ∈ top key n members' := by
  obtain ⟨hmem, hlt⟩ := (mem_top_iff h).mp he
  have hshared : e ∈ members' := by
    by_contra hnot
    have := hleft e hmem hnot
    omega
  refine (mem_top_iff h').mpr ⟨hshared, ?_⟩
  by_contra hge
  -- then the other top is ahead of it, and all of that is in this collection too
  obtain ⟨hlen, hahead⟩ := top_ahead h' (not_lt.mp hge)
  have hle : (top key n members').length ≤ (ahead key members (key e)).length := by
    refine le_ahead (nodup_keys_top h') fun f hf => ⟨?_, hahead f hf⟩
    obtain ⟨hfmem, hflt⟩ := (mem_top_iff h').mp hf
    by_contra hnot
    have hfnot : f ∉ members := fun hfm => hnot (List.mem_map_of_mem hfm)
    have := hright f hfmem hfnot
    omega
  omega

/-- **Two collections have the same top** exactly when no member of one that the other lacks is
among its own top. -/
theorem top_eq_top_iff {members' : List α} (h : (members.map key).Nodup)
    (h' : (members'.map key).Nodup) :
    top key n members = top key n members' ↔
      (∀ e ∈ members, e ∉ members' → n ≤ (ahead key members (key e)).length) ∧
        ∀ e ∈ members', e ∉ members → n ≤ (ahead key members' (key e)).length := by
  constructor
  · intro htop
    constructor
    · intro e he hnot
      by_contra hlt
      have hmem : e ∈ top key n members := (mem_top_iff h).mpr ⟨he, by omega⟩
      rw [htop] at hmem
      exact hnot (mem_of_mem_top hmem)
    · intro e he hnot
      by_contra hlt
      have hmem : e ∈ top key n members' := (mem_top_iff h').mpr ⟨he, by omega⟩
      rw [← htop] at hmem
      exact hnot (mem_of_mem_top hmem)
  · rintro ⟨hleft, hright⟩
    exact top_ext h h' fun e => ⟨mem_top_of_mem_top h h' hleft hright,
      mem_top_of_mem_top h' h hright hleft⟩

/-! ## Labelled members -/

section Labels

variable {β : Type*} {label : α → β} {members' : List α}

variable (key n) in
theorem nodup_labels_top (hlabels : (members.map label).Nodup) :
    ((top key n members).map label).Nodup :=
  (((perm_ranked members).map label).nodup_iff.mpr hlabels).sublist
    ((List.take_sublist _ _).map label)

/-- Labels of the first top that also stand in the second, when they do so wherever the
collections differ. -/
theorem labels_top_subset (h : (members.map key).Nodup) (h' : (members'.map key).Nodup)
    (hlabels : (members.map label).Nodup) (hlabels' : (members'.map label).Nodup)
    (hdiffer : ∀ b, (¬∃ e, e ∈ members ∧ e ∈ members' ∧ label e = b) →
      (b ∈ (top key n members).map label ↔ b ∈ (top key n members').map label)) {b : β}
    (hb : b ∈ (top key n members).map label) : b ∈ (top key n members').map label := by
  by_cases hshared : ∃ e, e ∈ members ∧ e ∈ members' ∧ label e = b
  swap
  · exact (hdiffer b hshared).mp hb
  obtain ⟨e, hmem, hmem', rfl⟩ := hshared
  obtain ⟨f, hf, hfe⟩ := List.mem_map.mp hb
  obtain rfl : f = e := List.inj_on_of_nodup_map hlabels (mem_of_mem_top hf) hmem hfe
  obtain ⟨-, hlt⟩ := (mem_top_iff h).mp hf
  by_contra hout
  have hnot : f ∉ top key n members' := fun hin => hout (List.mem_map_of_mem hin)
  have hge : n ≤ (ahead key members' (key f)).length := by
    by_contra hless
    exact hnot ((mem_top_iff h').mpr ⟨hmem', not_le.mp hless⟩)
  -- then the second top is ahead of it, and all of its labels stand in the first
  obtain ⟨hlength, hahead⟩ := top_ahead h' hge
  have hsub : (top key n members').map label ⊆ (top key n members).map label := by
    intro c hc
    by_cases hc' : ∃ e, e ∈ members ∧ e ∈ members' ∧ label e = c
    swap
    · exact (hdiffer c hc').mpr hc
    obtain ⟨t, ht, ht', rfl⟩ := hc'
    obtain ⟨u, hu, hut⟩ := List.mem_map.mp hc
    obtain rfl : u = t := List.inj_on_of_nodup_map hlabels' (mem_of_mem_top hu) ht' hut
    have hmono : (ahead key members (key u)).Sublist (ahead key members (key f)) := by
      refine List.monotone_filter_right members fun x hx => ?_
      have hxu : key x < key u := by simpa using hx
      simpa using hxu.trans (hahead u hu)
    have hle := hmono.length_le
    exact List.mem_map_of_mem ((mem_top_iff h).mpr ⟨ht, by omega⟩)
  have hsubperm := (nodup_labels_top key n hlabels').subperm hsub
  have hshort :
      ((top key n members).map label).length ≤ ((top key n members').map label).length := by
    rw [List.length_map, List.length_map, hlength]
    exact List.length_take_le _ _
  exact hout ((hsubperm.perm_of_length_le hshort).mem_iff.mpr hb)

/-- **Two tops have the same labels** exactly when each label that the collections do not share
is in both tops or in neither. -/
theorem labels_top_eq_iff (h : (members.map key).Nodup) (h' : (members'.map key).Nodup)
    (hlabels : (members.map label).Nodup) (hlabels' : (members'.map label).Nodup) :
    (∀ b, b ∈ (top key n members).map label ↔ b ∈ (top key n members').map label) ↔
      ∀ b, (¬∃ e, e ∈ members ∧ e ∈ members' ∧ label e = b) →
        (b ∈ (top key n members).map label ↔ b ∈ (top key n members').map label) := by
  constructor
  · exact fun hsame b _ => hsame b
  · intro hdiffer b
    constructor
    · exact labels_top_subset h h' hlabels hlabels' hdiffer
    · refine labels_top_subset h' h hlabels' hlabels fun c hc => (hdiffer c ?_).symm
      rintro ⟨e, hmem, hmem', hec⟩
      exact hc ⟨e, hmem', hmem, hec⟩

end Labels

/-! ## A copy of the top -/

/-- The copy has the top `n` of the original. -/
def AgreesOnTop (key : α → κ) (n : ℕ) (original copy : List α) : Prop :=
  ∀ e ∈ top key n original, e ∈ copy

/-- **Every ghost is outranked**: a member of the copy whose key is gone from the original has
`n` members of the original ahead of it. -/
def GhostsOutranked (key : α → κ) (n : ℕ) (original copy : List α) : Prop :=
  ∀ e ∈ copy, key e ∉ original.map key → n ≤ (ahead key original (key e)).length

variable {original copy : List α}

/-- A member of the copy among its top `n` is a key of the original, or a ghost that ranks. -/
theorem lt_ahead_of_mem_top (horiginal : (original.map key).Nodup)
    (hagrees : AgreesOnTop key n original copy) (hcopy : (copy.map key).Nodup) {e : α}
    (he : e ∈ top key n copy) : (ahead key original (key e)).length < n := by
  by_contra hge
  obtain ⟨hlen, hahead⟩ := top_ahead horiginal (not_lt.mp hge)
  -- the original's top is in the copy, and all of it is ahead
  have hle : (top key n original).length ≤ (ahead key copy (key e)).length :=
    le_ahead (nodup_keys_top horiginal) fun f hf =>
      ⟨List.mem_map_of_mem (hagrees f hf), hahead f hf⟩
  have := ((mem_top_iff hcopy).mp he).2
  omega

/-- **A copy that agrees on the top shows it** exactly when every ghost is outranked. -/
theorem top_eq_iff (horiginal : (original.map key).Nodup) (hcopy : (copy.map key).Nodup)
    (hagrees : AgreesOnTop key n original copy) :
    top key n copy = top key n original ↔ GhostsOutranked key n original copy := by
  constructor
  · intro htop e he hgone
    by_contra hlt
    have hout : n ≤ (ahead key copy (key e)).length := by
      by_contra hin
      have hmem : e ∈ top key n copy := (mem_top_iff hcopy).mpr ⟨he, by omega⟩
      rw [htop] at hmem
      exact hgone (List.mem_map_of_mem (mem_of_mem_top hmem))
    obtain ⟨hlen, hahead⟩ := top_ahead hcopy hout
    have hle : (top key n copy).length ≤ (ahead key original (key e)).length :=
      le_ahead (nodup_keys_top hcopy) fun f hf => by
        refine ⟨?_, hahead f hf⟩
        rw [htop] at hf
        exact List.mem_map_of_mem (mem_of_mem_top hf)
    omega
  · intro hghosts
    -- no ghost is among the copy's top
    have hknown : ∀ f ∈ top key n copy, key f ∈ original.map key := by
      intro f hf
      by_contra hgone
      have := hghosts f (mem_of_mem_top hf) hgone
      have := lt_ahead_of_mem_top horiginal hagrees hcopy hf
      omega
    refine top_ext hcopy horiginal fun e => ⟨fun he => ?_, fun he => ?_⟩
    · obtain ⟨f, hf, hfe⟩ := List.mem_map.mp (hknown e he)
      have hlt := lt_ahead_of_mem_top horiginal hagrees hcopy he
      rw [← hfe] at hlt
      have hftop : f ∈ top key n original := (mem_top_iff horiginal).mpr ⟨hf, hlt⟩
      have heq : f = e :=
        List.inj_on_of_nodup_map hcopy (hagrees f hftop) (mem_of_mem_top he) hfe
      rwa [← heq]
    · refine (mem_top_iff hcopy).mpr ⟨hagrees e he, ?_⟩
      by_contra hge
      obtain ⟨hlen, hahead⟩ := top_ahead hcopy (not_lt.mp hge)
      have hle : (top key n copy).length ≤ (ahead key original (key e)).length :=
        le_ahead (nodup_keys_top hcopy) fun f hf => ⟨hknown f hf, hahead f hf⟩
      have := ((mem_top_iff horiginal).mp he).2
      omega

end TraderStack.Lib
