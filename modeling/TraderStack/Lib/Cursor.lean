import Mathlib.Data.List.Nodup
import Mathlib.Data.List.Perm.Basic
import Mathlib.Order.MinMax

/-!
# Reading a log through a cursor

A log of entries with increasing keys becomes visible entry by entry. A reader
keeps the key of the last entry it took; a poll answers it with every visible
entry past that key, in any order, and the reader moves its cursor to the largest
key of the answer. A poll may also fail, be empty, or be thrown away, and then
the cursor stays.

- `Answers`: what a poll may return;
- `CaughtUp`: the reader has taken each entry between its start and its cursor,
  and no other, once;
- `CaughtUp.poll`: taking an answer keeps that.

The keys are in any linear order, the entries of any type.
-/

namespace TraderStack.Lib

universe u v

variable {κ : Type u} {α : Type v} [LinearOrder κ] {key : α → κ}

/-- The largest key of a nonempty list of entries. -/
def lastKey (key : α → κ) (first : α) (rest : List α) : κ :=
  (rest.map key).foldl max (key first)

theorem foldl_max_cases (ks : List κ) (k : κ) : ks.foldl max k = k ∨ ks.foldl max k ∈ ks := by
  induction ks generalizing k with
  | nil => exact .inl rfl
  | cons j ks ih =>
    rw [List.foldl_cons]
    rcases ih (max k j) with heq | hmem
    · rw [heq]
      rcases max_choice k j with h | h
      · exact .inl h
      · exact .inr (List.mem_cons.mpr (.inl h))
    · exact .inr (List.mem_cons_of_mem _ hmem)

theorem le_foldl_max (ks : List κ) (k : κ) : k ≤ ks.foldl max k ∧ ∀ j ∈ ks, j ≤ ks.foldl max k := by
  induction ks generalizing k with
  | nil => exact ⟨le_refl k, nofun⟩
  | cons i ks ih =>
    obtain ⟨hstart, hrest⟩ := ih (max k i)
    refine ⟨le_trans (le_max_left k i) hstart, fun j hj => ?_⟩
    rcases List.mem_cons.mp hj with rfl | hj
    · exact le_trans (le_max_right k j) hstart
    · exact hrest j hj

/-- The last key is the key of an entry, -/
theorem exists_key_eq_lastKey (key : α → κ) (first : α) (rest : List α) :
    ∃ a ∈ first :: rest, key a = lastKey key first rest := by
  rcases foldl_max_cases (rest.map key) (key first) with heq | hmem
  · exact ⟨first, List.mem_cons_self, heq.symm⟩
  · obtain ⟨a, ha, hkey⟩ := List.mem_map.mp hmem
    exact ⟨a, List.mem_cons_of_mem _ ha, hkey⟩

/-- and no entry has a larger one. -/
theorem key_le_lastKey {first : α} {rest : List α} {a : α} (h : a ∈ first :: rest) :
    key a ≤ lastKey key first rest := by
  obtain ⟨hfirst, hrest⟩ := le_foldl_max (rest.map key) (key first)
  rcases List.mem_cons.mp h with rfl | ha
  · exact hfirst
  · exact hrest _ (List.mem_map_of_mem ha)

/-- The entries with keys past `lo`, up to `hi`. -/
def between (key : α → κ) (lo hi : κ) (log : List α) : List α :=
  log.filter fun a => lo < key a ∧ key a ≤ hi

theorem mem_between {lo hi : κ} {log : List α} {a : α} :
    a ∈ between key lo hi log ↔ a ∈ log ∧ lo < key a ∧ key a ≤ hi := by
  simp [between]

/-- The log's keys increase. -/
abbrev Increasing (key : α → κ) (log : List α) : Prop := log.Pairwise fun a b => key a < key b

theorem Increasing.nodup {log : List α} (h : Increasing key log) : log.Nodup :=
  h.imp fun hlt heq => absurd (congrArg key heq) (ne_of_lt hlt)

/-- In an increasing log the key tells the entry. -/
theorem Increasing.eq_of_key {log : List α} (h : Increasing key log) {a b : α} (ha : a ∈ log)
    (hb : b ∈ log) (hkey : key a = key b) : a = b := by
  have hkeys : (log.map key).Nodup := List.pairwise_map.mpr (h.imp fun hlt => ne_of_lt hlt)
  exact List.inj_on_of_nodup_map hkeys ha hb hkey

/-- What becomes visible does so in the order of the keys. -/
theorem Increasing.visible_of_le {log visible : List α} (h : Increasing key log)
    (hvisible : visible <+: log) {a b : α} (ha : a ∈ log) (hb : b ∈ visible)
    (hle : key a ≤ key b) : a ∈ visible := by
  obtain ⟨hidden, rfl⟩ := hvisible
  rcases List.mem_append.mp ha with ha | ha
  · exact ha
  · have hlt : key b < key a := (List.pairwise_append.mp h).2.2 b hb a ha
    exact absurd hlt (not_lt.mpr hle)

/-- **An answer to a poll**: of the visible entries, those past the cursor, each
once. -/
structure Answers (key : α → κ) (log : List α) (cursor : κ) (batch : List α) : Prop where
  nodup : batch.Nodup
  visible : ∃ visible, visible <+: log ∧ ∀ a, a ∈ batch ↔ a ∈ visible ∧ cursor < key a

/-- **The reader has kept up**: it took each entry past its start up to its cursor,
and no other, once. -/
structure CaughtUp (key : α → κ) (log : List α) (start cursor : κ) (taken : List α) : Prop where
  start_le : start ≤ cursor
  taken : taken.Perm (between key start cursor log)

variable {log : List α} {start cursor : κ} {taken : List α}

/-- A new reader has taken nothing. -/
theorem CaughtUp.new (key : α → κ) (log : List α) (start : κ) :
    CaughtUp key log start start [] where
  start_le := le_refl start
  taken := by
    have hnone : between key start start log = [] :=
      List.filter_eq_nil_iff.mpr fun a _ => by simp
    rw [hnone]

theorem CaughtUp.mem_iff (h : CaughtUp key log start cursor taken) {a : α} :
    a ∈ taken ↔ a ∈ log ∧ start < key a ∧ key a ≤ cursor := by
  rw [h.taken.mem_iff, mem_between]

theorem CaughtUp.nodup (h : CaughtUp key log start cursor taken) (hlog : Increasing key log) :
    taken.Nodup :=
  h.taken.nodup_iff.mpr (hlog.nodup.filter _)

/-- **The rule of a poll**: a reader that takes an answer and moves its cursor to
the last key of it has kept up. -/
theorem CaughtUp.poll (h : CaughtUp key log start cursor taken) (hlog : Increasing key log)
    {first : α} {rest : List α} (hanswer : Answers key log cursor (first :: rest)) :
    CaughtUp key log start (lastKey key first rest) (taken ++ first :: rest) := by
  obtain ⟨visible, hvisible, hmem⟩ := hanswer.visible
  have hnew : ∀ a ∈ first :: rest, cursor < key a := fun a ha => ((hmem a).mp ha).2
  obtain ⟨last, hlast, hkey⟩ := exists_key_eq_lastKey key first rest
  have hmoved : cursor < lastKey key first rest := hkey ▸ hnew last hlast
  have hnodup : (taken ++ first :: rest).Nodup := by
    refine List.nodup_append.mpr ⟨h.nodup hlog, hanswer.nodup, ?_⟩
    rintro a ha b hb rfl
    exact absurd (hnew a hb) (not_lt.mpr (h.mem_iff.mp ha).2.2)
  refine ⟨le_trans h.start_le (le_of_lt hmoved), ?_⟩
  refine (List.perm_ext_iff_of_nodup hnodup (hlog.nodup.filter _)).mpr fun a => ?_
  show a ∈ taken ++ first :: rest ↔ a ∈ between key start (lastKey key first rest) log
  rw [List.mem_append, h.mem_iff, hmem, mem_between]
  constructor
  · rintro (⟨ha, hstart, hle⟩ | hbatch)
    · exact ⟨ha, hstart, le_trans hle (le_of_lt hmoved)⟩
    · refine ⟨hvisible.subset hbatch.1, lt_of_le_of_lt h.start_le hbatch.2, ?_⟩
      exact key_le_lastKey ((hmem a).mpr hbatch)
  · rintro ⟨ha, hstart, hle⟩
    rcases le_or_gt (key a) cursor with hold | hpast
    · exact .inl ⟨ha, hstart, hold⟩
    · -- it is visible, for the last entry of the answer is
      refine .inr ⟨hlog.visible_of_le hvisible ha ((hmem last).mp hlast).1 ?_, hpast⟩
      rw [hkey]
      exact hle

end TraderStack.Lib
