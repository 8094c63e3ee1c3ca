import Mathlib.Order.Defs.PartialOrder

/-!
# Copies of a growing record

A record grows: it never loses a key, and as long as it gains none its value
stays (`Later`). Two copies of it are written at moments of their own, each
replacing the one before. Whenever the copies carry the same keys they carry the
same value, whatever was written in between (`Copies.val_eq`), so a process that
dies can resume from either.

The keys are in any partial order, the value is of any type.
-/

namespace TraderStack.Lib

universe u v w

variable {σ : Type u} {κ : Type v} {γ : Type w} [PartialOrder κ] {keys : σ → κ} {val : σ → γ}

/-- `t` is a later state of the record than `s`. -/
structure Later (keys : σ → κ) (val : σ → γ) (s t : σ) : Prop where
  keys_le : keys s ≤ keys t
  val_eq : keys s = keys t → val s = val t

theorem Later.refl (s : σ) : Later keys val s s := ⟨le_refl _, fun _ => rfl⟩

theorem Later.trans {s t u : σ} (h : Later keys val s t) (h' : Later keys val t u) :
    Later keys val s u where
  keys_le := le_trans h.keys_le h'.keys_le
  val_eq := by
    intro heq
    -- the keys in between are squeezed
    have hst : keys s = keys t := le_antisymm h.keys_le (heq ▸ h'.keys_le)
    rw [h.val_eq hst, h'.val_eq (hst.symm.trans heq)]

theorem Later.of_eq {s t : σ} (hkeys : keys t = keys s) (hval : val t = val s) :
    Later keys val s t :=
  ⟨le_of_eq hkeys.symm, fun _ => hval.symm⟩

/-- A gained key is all it takes. -/
theorem Later.of_lt {s t : σ} (h : keys s < keys t) : Later keys val s t :=
  ⟨le_of_lt h, fun heq => absurd heq (ne_of_lt h)⟩

/-- Two copies of a record: both are earlier states of it, and of the two one is
the earlier. -/
structure Copies (keys : σ → κ) (val : σ → γ) (record first second : σ) : Prop where
  fst : Later keys val first record
  snd : Later keys val second record
  ordered : Later keys val first second ∨ Later keys val second first

namespace Copies

variable {record record' first second : σ}

theorem refl (s : σ) : Copies keys val s s s :=
  ⟨.refl s, .refl s, .inl (.refl s)⟩

theorem grow (h : Copies keys val record first second) (hl : Later keys val record record') :
    Copies keys val record' first second :=
  ⟨h.fst.trans hl, h.snd.trans hl, h.ordered⟩

theorem writeFirst (h : Copies keys val record first second) :
    Copies keys val record record second :=
  ⟨.refl _, h.snd, .inr h.snd⟩

theorem writeSecond (h : Copies keys val record first second) :
    Copies keys val record first record :=
  ⟨h.fst, .refl _, .inl h.fst⟩

/-- **Copies with the same keys carry the same value.** -/
theorem val_eq (h : Copies keys val record first second) (heq : keys first = keys second) :
    val first = val second := by
  rcases h.ordered with hl | hl
  · exact hl.val_eq heq
  · exact (hl.val_eq heq.symm).symm

/-- Resuming from the first copy. -/
theorem restore (h : Copies keys val record first second) (heq : keys first = keys second) :
    Copies keys val first first second :=
  ⟨.refl _, .of_eq heq (h.val_eq heq), .inl (.of_eq heq.symm (h.val_eq heq).symm)⟩

end Copies

end TraderStack.Lib
