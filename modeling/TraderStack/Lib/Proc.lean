/-!
# Processes that can crash

A process runs over a world and either returns or raises. Some of its steps are
*effects*: a durable write, a call to another party. After each effect the
process can crash, so a run also reports the world at each of these points; a
crash picks one of them.

`Triple P p Q R C` is the specification of a process: started where `P` holds,
it returns with `Q`, raises with `R`, and at every point where it can crash `C`
holds. The rules follow the structure of the process: `Triple.pure`,
`Triple.bind`, `Triple.modify`, `Triple.exec`, `Triple.effect`, `Triple.handle`,
`Triple.zoom`, and weakening. `Projects` relates a process over a larger world to
one over a part of it.
-/

namespace TraderStack.Lib

universe u v

/-- How a run of a process went. -/
structure Ran (σ ε α : Type u) where
  exit : Except ε α
  world : σ
  crashPoints : List σ

/-- A process over the world `σ` that returns an `α` or raises an `ε`. -/
def Proc (σ ε α : Type u) : Type u := σ → Ran σ ε α

namespace Proc

variable {σ ε α β : Type u}

/-- Return without touching the world. -/
def pure (a : α) : Proc σ ε α := fun s => ⟨.ok a, s, []⟩

/-- Raise without touching the world. -/
def raise (e : ε) : Proc σ ε α := fun s => ⟨.error e, s, []⟩

/-- Run one process and continue with its result; an exception ends both. -/
def bind (p : Proc σ ε α) (f : α → Proc σ ε β) : Proc σ ε β := fun s =>
  let ran := p s
  match ran.exit with
  | .error e => ⟨.error e, ran.world, ran.crashPoints⟩
  | .ok a =>
    let ran' := f a ran.world
    ⟨ran'.exit, ran'.world, ran.crashPoints ++ ran'.crashPoints⟩

instance : Monad (Proc σ ε) where
  pure := pure
  bind := bind

/-- Read the world. -/
def get : Proc σ ε σ := fun s => ⟨.ok s, s, []⟩

/-- Change what a crash would lose. -/
def modify (f : σ → σ) : Proc σ ε PUnit := fun s => ⟨.ok ⟨⟩, f s, []⟩

/-- A step that may raise, and changes what a crash would lose either way. -/
def exec (f : σ → Except ε α × σ) : Proc σ ε α := fun s => ⟨(f s).1, (f s).2, []⟩

/-- The same process, raising something else. -/
def mapError {ε' : Type u} (g : ε → ε') (p : Proc σ ε α) : Proc σ ε' α := fun s =>
  ⟨(p s).exit.mapError g, (p s).world, (p s).crashPoints⟩

/-- Handle what a process raises; what it did before stays done. -/
def handle {ε' : Type u} (p : Proc σ ε α) (f : ε → Proc σ ε' α) : Proc σ ε' α := fun s =>
  let ran := p s
  match ran.exit with
  | .ok a => ⟨.ok a, ran.world, ran.crashPoints⟩
  | .error e =>
    let ran' := f e ran.world
    ⟨ran'.exit, ran'.world, ran.crashPoints ++ ran'.crashPoints⟩

/-- A durable step: the process can crash right after it. -/
def effect (f : σ → α × σ) : Proc σ ε α := fun s => ⟨.ok (f s).1, (f s).2, [(f s).2]⟩

/-- Run a process on a part of a larger world; the rest stays as it is. -/
def zoom {τ : Type u} (part : τ → σ) (withPart : τ → σ → τ) (p : Proc σ ε α) : Proc τ ε α :=
  fun t => ⟨(p (part t)).exit, withPart t (p (part t)).world,
    (p (part t)).crashPoints.map (withPart t)⟩

theorem bind_of_error {p : Proc σ ε α} {f : α → Proc σ ε β} {s : σ} {e : ε}
    (h : (p s).exit = .error e) :
    (p >>= f) s = ⟨.error e, (p s).world, (p s).crashPoints⟩ := by
  show Proc.bind p f s = _
  simp only [Proc.bind, h]

theorem bind_of_ok {p : Proc σ ε α} {f : α → Proc σ ε β} {s : σ} {a : α}
    (h : (p s).exit = .ok a) :
    (p >>= f) s = ⟨(f a (p s).world).exit, (f a (p s).world).world,
      (p s).crashPoints ++ (f a (p s).world).crashPoints⟩ := by
  show Proc.bind p f s = _
  simp only [Proc.bind, h]

/-- After a process that returned, the rest runs from where it left the world. -/
theorem bind_of_returned {p : Proc σ ε α} {f : α → Proc σ ε β} {s s' : σ} {a : α}
    (h : p s = ⟨.ok a, s', []⟩) : (p >>= f) s = f a s' :=
  (bind_of_ok (by rw [h])).trans (by rw [h]; rfl)

/-- What a process raised, the whole raises. -/
theorem bind_of_raised {p : Proc σ ε α} {f : α → Proc σ ε β} {s s' : σ} {e : ε}
    (h : p s = ⟨.error e, s', []⟩) : (p >>= f) s = ⟨.error e, s', []⟩ :=
  (bind_of_error (by rw [h])).trans (by rw [h])

theorem pure_bind (a : α) (f : α → Proc σ ε β) : (Pure.pure a >>= f) = f a := rfl

theorem bind_assoc {γ : Type u} (p : Proc σ ε α) (f : α → Proc σ ε β) (g : β → Proc σ ε γ) :
    p >>= f >>= g = p >>= fun a => f a >>= g := by
  funext s
  cases hp : (p s).exit with
  | error e =>
    rw [bind_of_error hp]
    exact bind_of_error (by rw [bind_of_error hp]) |>.trans (by rw [bind_of_error hp])
  | ok a =>
    rw [bind_of_ok hp]
    cases hf : (f a (p s).world).exit with
    | error e =>
      rw [bind_of_error hf]
      have hwhole : ((p >>= f) s).exit = .error e := by rw [bind_of_ok hp]; exact hf
      rw [bind_of_error hwhole, bind_of_ok hp]
    | ok b =>
      rw [bind_of_ok hf]
      have hwhole : ((p >>= f) s).exit = .ok b := by rw [bind_of_ok hp]; exact hf
      rw [bind_of_ok hwhole, bind_of_ok hp, List.append_assoc]

/-- Reading the world, then going on from it. -/
theorem get_bind_apply (f : σ → Proc σ ε α) (s : σ) : (Proc.get >>= f) s = f s s := rfl

theorem handle_of_ok {ε' : Type u} {p : Proc σ ε α} {f : ε → Proc σ ε' α} {s : σ} {a : α}
    (h : (p s).exit = .ok a) : handle p f s = ⟨.ok a, (p s).world, (p s).crashPoints⟩ := by
  simp only [handle, h]

theorem handle_of_error {ε' : Type u} {p : Proc σ ε α} {f : ε → Proc σ ε' α} {s : σ} {e : ε}
    (h : (p s).exit = .error e) :
    handle p f s = ⟨(f e (p s).world).exit, (f e (p s).world).world,
      (p s).crashPoints ++ (f e (p s).world).crashPoints⟩ := by
  simp only [handle, h]

/-! ## Specifications -/

/-- From `P`, the process returns with `Q` or raises with `R`, and `C` holds
wherever it can crash. -/
def Triple (P : σ → Prop) (p : Proc σ ε α) (Q : α → σ → Prop) (R : ε → σ → Prop)
    (C : σ → Prop) : Prop :=
  ∀ s, P s →
    (match (p s).exit with
      | .ok a => Q a (p s).world
      | .error e => R e (p s).world) ∧
      ∀ c ∈ (p s).crashPoints, C c

variable {P S : σ → Prop} {Q Q' : α → σ → Prop} {R : ε → σ → Prop} {C : σ → Prop}

theorem Triple.pure {a : α} (h : ∀ s, P s → Q a s) :
    Triple P (Pure.pure a : Proc σ ε α) Q R C :=
  fun s hs => ⟨h s hs, nofun⟩

theorem Triple.raise {e : ε} (h : ∀ s, P s → R e s) :
    Triple P (Proc.raise e : Proc σ ε α) Q R C :=
  fun s hs => ⟨h s hs, nofun⟩

theorem Triple.get {Q : σ → σ → Prop} (h : ∀ s, P s → Q s s) :
    Triple P (Proc.get : Proc σ ε σ) Q R C :=
  fun s hs => ⟨h s hs, nofun⟩

theorem Triple.modify {f : σ → σ} {Q : PUnit → σ → Prop} (h : ∀ s, P s → Q ⟨⟩ (f s)) :
    Triple P (Proc.modify f : Proc σ ε PUnit) Q R C :=
  fun s hs => ⟨h s hs, nofun⟩

theorem Triple.exec {f : σ → Except ε α × σ}
    (h : ∀ s, P s → match (f s).1 with
      | .ok a => Q a (f s).2
      | .error e => R e (f s).2) :
    Triple P (Proc.exec f : Proc σ ε α) Q R C :=
  fun s hs => ⟨h s hs, nofun⟩

theorem Triple.mapError {ε' : Type u} {g : ε → ε'} {p : Proc σ ε α} {R' : ε' → σ → Prop}
    (hp : Triple P p Q R C) (hR : ∀ e s, R e s → R' (g e) s) :
    Triple P (Proc.mapError g p) Q R' C := by
  intro s hs
  obtain ⟨hexit, hcrash⟩ := hp s hs
  refine ⟨?_, hcrash⟩
  cases h : (p s).exit with
  | error e =>
    rw [h] at hexit
    simp only [Proc.mapError, h]
    exact hR e _ hexit
  | ok a =>
    rw [h] at hexit
    simp only [Proc.mapError, h]
    exact hexit

/-- **The rule of a part**: at each start world the process is specified on its
part, with the rest fixed. -/
theorem Triple.zoom {τ : Type u} {part : τ → σ} {withPart : τ → σ → τ} {p : Proc σ ε α}
    {P : τ → Prop} {Q : α → τ → Prop} {R : ε → τ → Prop} {C : τ → Prop}
    (hp : ∀ t, P t → Triple (fun s => s = part t) p (fun a s => Q a (withPart t s))
      (fun e s => R e (withPart t s)) fun s => C (withPart t s)) :
    Triple P (Proc.zoom part withPart p) Q R C := by
  intro t ht
  obtain ⟨hexit, hcrash⟩ := hp t ht (part t) rfl
  refine ⟨hexit, fun c hmem => ?_⟩
  obtain ⟨s, hs, rfl⟩ := List.mem_map.mp hmem
  exact hcrash s hs

theorem Triple.effect {f : σ → α × σ} (h : ∀ s, P s → Q (f s).1 (f s).2 ∧ C (f s).2) :
    Triple P (Proc.effect f : Proc σ ε α) Q R C := by
  intro s hs
  obtain ⟨hq, hc⟩ := h s hs
  refine ⟨hq, fun c hmem => ?_⟩
  rcases List.mem_singleton.mp hmem with rfl
  exact hc

theorem Triple.bind {p : Proc σ ε α} {f : α → Proc σ ε β} {Q' : β → σ → Prop}
    (hp : Triple P p Q R C) (hf : ∀ a, Triple (Q a) (f a) Q' R C) :
    Triple P (p >>= f) Q' R C := by
  intro s hs
  obtain ⟨hexit, hcrash⟩ := hp s hs
  cases h : (p s).exit with
  | error e =>
    rw [h] at hexit
    rw [bind_of_error h]
    exact ⟨hexit, hcrash⟩
  | ok a =>
    rw [h] at hexit
    rw [bind_of_ok h]
    obtain ⟨hexit', hcrash'⟩ := hf a (p s).world hexit
    refine ⟨hexit', fun c hmem => ?_⟩
    rcases List.mem_append.mp hmem with hmem | hmem
    · exact hcrash c hmem
    · exact hcrash' c hmem

theorem Triple.handle {ε' : Type u} {p : Proc σ ε α} {f : ε → Proc σ ε' α}
    {R' : ε' → σ → Prop} (hp : Triple P p Q R C) (hf : ∀ e, Triple (R e) (f e) Q R' C) :
    Triple P (Proc.handle p f) Q R' C := by
  intro s hs
  obtain ⟨hexit, hcrash⟩ := hp s hs
  cases h : (p s).exit with
  | ok a =>
    rw [h] at hexit
    rw [handle_of_ok h]
    exact ⟨hexit, hcrash⟩
  | error e =>
    rw [h] at hexit
    rw [handle_of_error h]
    obtain ⟨hexit', hcrash'⟩ := hf e (p s).world hexit
    refine ⟨hexit', fun c hmem => ?_⟩
    rcases List.mem_append.mp hmem with hmem | hmem
    · exact hcrash c hmem
    · exact hcrash' c hmem

/-- A specification at one start world may speak of the run itself. -/
theorem Triple.ran {p : Proc σ ε α} {s₀ : σ} (hp : Triple P p Q R C) :
    Triple (fun s => s = s₀ ∧ P s) p
      (fun a s => (p s₀).exit = .ok a ∧ s = (p s₀).world ∧ Q a s) R C := by
  rintro s ⟨rfl, hs⟩
  obtain ⟨hexit, hcrash⟩ := hp s hs
  refine ⟨?_, hcrash⟩
  cases h : (p s).exit with
  | ok a =>
    rw [h] at hexit
    exact ⟨rfl, rfl, hexit⟩
  | error e =>
    rw [h] at hexit
    exact hexit

/-- Strengthen the precondition, weaken the postcondition. -/
theorem Triple.mono {p : Proc σ ε α} (hp : Triple P p Q R C) (hpre : ∀ s, S s → P s)
    (hpost : ∀ a s, Q a s → Q' a s) : Triple S p Q' R C := by
  intro s hs
  obtain ⟨hexit, hcrash⟩ := hp s (hpre s hs)
  refine ⟨?_, hcrash⟩
  cases h : (p s).exit with
  | error e =>
    rw [h] at hexit
    exact hexit
  | ok a =>
    rw [h] at hexit
    exact hpost a _ hexit

/-- Weaken what holds of a raise and at the crash points. -/
theorem Triple.weaken {p : Proc σ ε α} {T : ε → σ → Prop} {D : σ → Prop}
    (hp : Triple P p Q R C) (hraise : ∀ e s, R e s → T e s) (hcrash : ∀ s, C s → D s) :
    Triple P p Q T D := by
  intro s hs
  obtain ⟨hexit, hpoints⟩ := hp s hs
  refine ⟨?_, fun c hmem => hcrash c (hpoints c hmem)⟩
  cases h : (p s).exit with
  | error e =>
    rw [h] at hexit
    exact hraise e _ hexit
  | ok a =>
    rw [h] at hexit
    exact hexit

/-- A pure fact of the precondition may be used to prove the triple. -/
theorem Triple.of_fact {p : Proc σ ε α} {F : Prop} (hF : ∀ s, P s → F)
    (hp : F → Triple P p Q R C) : Triple P p Q R C :=
  fun s hs => hp (hF s hs) s hs

/-- The process keeps an assertion, however it ends and wherever it crashes. -/
abbrev Keeps (I : σ → Prop) (p : Proc σ ε α) : Prop :=
  Triple I p (fun _ => I) (fun _ => I) I

variable {I : σ → Prop}

theorem Keeps.pure (a : α) : Keeps I (Pure.pure a : Proc σ ε α) :=
  Triple.pure fun _ hs => hs

theorem Keeps.raise (e : ε) : Keeps I (Proc.raise e : Proc σ ε α) :=
  Triple.raise fun _ hs => hs

theorem Keeps.bind {p : Proc σ ε α} {f : α → Proc σ ε β} (hp : Keeps I p)
    (hf : ∀ a, Keeps I (f a)) : Keeps I (p >>= f) :=
  Triple.bind hp hf

/-- A process on a part keeps what its part keeps. -/
theorem Keeps.zoom {τ : Type u} {part : τ → σ} {withPart : τ → σ → τ} {p : Proc σ ε α}
    {J : τ → Prop} (hp : Keeps I p) (hpart : ∀ t, J t → I (part t))
    (hwith : ∀ t s, J t → I s → J (withPart t s)) : Keeps J (Proc.zoom part withPart p) := by
  refine Triple.zoom fun t ht s hs => ?_
  subst hs
  obtain ⟨hexit, hcrash⟩ := hp (part t) (hpart t ht)
  refine ⟨?_, fun c hmem => hwith t c ht (hcrash c hmem)⟩
  split
  · rename_i a ha
    rw [ha] at hexit
    exact hwith t _ ht hexit
  · rename_i e he
    rw [he] at hexit
    exact hwith t _ ht hexit

/-- Reading the world may be followed by anything that keeps the assertion. -/
theorem Keeps.get_bind {f : σ → Proc σ ε α} (hf : ∀ a, Keeps I (f a)) :
    Keeps I (Proc.get >>= f) :=
  Keeps.bind (Triple.get fun _ hs => hs) hf

end Proc

/-- The world after a run that may have crashed: as the process left it, or
restarted from the crash point picked; a crash past the last one comes at the
end. -/
def Ran.after {σ ε α : Type u} (r : Ran σ ε α) (restart : σ → σ) : Option Nat → σ
  | none => r.world
  | some k => restart (r.crashPoints.getD k r.world)

/-- What holds at the end and, after a restart, at every crash point, holds of
the world after the run. -/
theorem Proc.Triple.after {σ ε α : Type u} {P I C : σ → Prop} {p : Proc σ ε α}
    {Q : α → σ → Prop} {R : ε → σ → Prop} {restart : σ → σ} (hp : Triple P p Q R C)
    (hQ : ∀ a s, Q a s → I s) (hR : ∀ e s, R e s → I s) (hC : ∀ s, C s → I (restart s))
    (hrestart : ∀ s, I s → I (restart s)) {s : σ} (hs : P s) (crash : Option Nat) :
    I ((p s).after restart crash) := by
  obtain ⟨hexit, hcrash⟩ := hp s hs
  have hend : I (p s).world := by
    cases h : (p s).exit with
    | error e =>
      rw [h] at hexit
      exact hR e _ hexit
    | ok a =>
      rw [h] at hexit
      exact hQ a _ hexit
  cases crash with
  | none => exact hend
  | some k =>
    show I (restart ((p s).crashPoints.getD k (p s).world))
    rw [List.getD_eq_getElem?_getD]
    cases hk : (p s).crashPoints[k]? with
    | none => exact hrestart _ hend
    | some c => exact hC c (hcrash c (List.mem_of_getElem? hk))

/-- What a process keeps holds after the run, if a restart keeps it at the crash
point picked. -/
theorem Proc.Triple.after_of {σ ε α : Type u} {P I G : σ → Prop} {p : Proc σ ε α}
    {restart : σ → σ} (hp : Triple P p (fun _ => I) (fun _ => I) I)
    (hrestart : ∀ s, G s → I s → I (restart s)) {s : σ} (hs : P s) (crash : Option Nat)
    (hG : ∀ k, crash = some k → G ((p s).crashPoints.getD k (p s).world)) :
    I ((p s).after restart crash) := by
  cases crash with
  | none =>
    have hend : I ((p s).after id none) :=
      hp.after (fun _ _ h => h) (fun _ _ h => h) (fun _ h => h) (fun _ h => h) hs none
    exact hend
  | some k =>
    -- the crash point is reached with the assertion, before any restart
    have hpoint : I ((p s).after id (some k)) :=
      hp.after (fun _ _ h => h) (fun _ _ h => h) (fun _ h => h) (fun _ h => h) hs (some k)
    exact hrestart _ (hG k rfl) hpoint

/-! ## Projections -/

namespace Proc

variable {σ τ ε ε' α β : Type u} {part : τ → σ} {raised : ε → ε'} {P : τ → Prop}

/-- Seen through `part`, the process `p` is the process `q`: it ends alike, and
leaves the same part at its end and wherever it can crash. -/
def Projects (part : τ → σ) (raised : ε → ε') (P : τ → Prop) (p : Proc τ ε' α)
    (q : Proc σ ε α) : Prop :=
  ∀ t, P t → (p t).exit = (q (part t)).exit.mapError raised ∧
    part (p t).world = (q (part t)).world ∧
    (p t).crashPoints.map part = (q (part t)).crashPoints

theorem Projects.pure (a : α) :
    Projects part raised P (Pure.pure a : Proc τ ε' α) (Pure.pure a) :=
  fun _ _ => ⟨rfl, rfl, rfl⟩

theorem Projects.raise (e : ε) :
    Projects part raised P (Proc.raise (raised e) : Proc τ ε' α) (Proc.raise e) :=
  fun _ _ => ⟨rfl, rfl, rfl⟩

theorem Projects.zoom {withPart : τ → σ → τ} (hpart : ∀ t s, part (withPart t s) = s)
    (q : Proc σ ε α) :
    Projects part raised P (Proc.mapError raised (Proc.zoom part withPart q)) q := by
  intro t _
  refine ⟨rfl, hpart t _, ?_⟩
  show ((q (part t)).crashPoints.map (withPart t)).map part = _
  rw [List.map_map]
  exact (List.map_congr_left fun s _ => hpart t s).trans (List.map_id _)

theorem Projects.bind {p : Proc τ ε' α} {q : Proc σ ε α} {f : α → Proc τ ε' β}
    {g : α → Proc σ ε β} (hp : Projects part raised P p q)
    (hf : ∀ a, Projects part raised (fun _ => True) (f a) (g a)) :
    Projects part raised P (p >>= f) (q >>= g) := by
  intro t ht
  obtain ⟨hexit, hworld, hcrash⟩ := hp t ht
  cases hq : (q (part t)).exit with
  | error e =>
    rw [hq] at hexit
    rw [bind_of_error hexit, bind_of_error hq]
    exact ⟨rfl, hworld, hcrash⟩
  | ok a =>
    rw [hq] at hexit
    rw [bind_of_ok hexit, bind_of_ok hq]
    obtain ⟨hexit', hworld', hcrash'⟩ := hf a (p t).world trivial
    rw [hworld] at hexit' hworld' hcrash'
    exact ⟨hexit', hworld', by rw [List.map_append, hcrash, hcrash']⟩

theorem Projects.effect {f : τ → α × τ} {g : σ → α × σ} (h : ∀ t, P t → (f t).1 = (g (part t)).1)
    (hpart : ∀ t, P t → part (f t).2 = (g (part t)).2) :
    Projects part raised P (Proc.effect f : Proc τ ε' α) (Proc.effect g) :=
  fun t ht => ⟨congrArg Except.ok (h t ht), hpart t ht, congrArg (fun s => [s]) (hpart t ht)⟩

/-- A last step that does nothing is not seen. -/
theorem Projects.bind_pure {p : Proc τ ε' PUnit} {q : Proc σ ε PUnit}
    (hp : Projects part raised P p q) : Projects part raised P (p >>= Pure.pure) q := by
  intro t ht
  obtain ⟨hexit, hworld, hcrash⟩ := hp t ht
  cases hq : (q (part t)).exit with
  | error e =>
    rw [hq] at hexit
    rw [bind_of_error hexit]
    exact ⟨rfl, hworld, hcrash⟩
  | ok a =>
    rw [hq] at hexit
    rw [bind_of_ok hexit]
    exact ⟨rfl, hworld, (congrArg (List.map part) (List.append_nil _)).trans hcrash⟩

/-- Both may read their world. -/
theorem Projects.get_bind {f : τ → Proc τ ε' α} {g : σ → Proc σ ε α}
    (hf : ∀ t, P t → Projects part raised (fun s => s = t) (f t) (g (part t))) :
    Projects part raised P (Proc.get >>= f) (Proc.get >>= g) :=
  fun t ht => hf t ht t rfl

/-- What does not touch the part is not seen. -/
theorem Projects.modify_bind {f : τ → τ} {p : PUnit → Proc τ ε' α} {q : Proc σ ε α}
    {Q : τ → Prop} (hf : ∀ t, P t → part (f t) = part t ∧ Q (f t))
    (hp : Projects part raised Q (p ⟨⟩) q) : Projects part raised P (Proc.modify f >>= p) q := by
  intro t ht
  obtain ⟨hpart, hP⟩ := hf t ht
  obtain ⟨hexit, hworld, hcrash⟩ := hp (f t) hP
  rw [hpart] at hexit hworld hcrash
  exact ⟨hexit, hworld, hcrash⟩

theorem Projects.handle {ε₁ ε₂ : Type u} {p : Proc τ ε' α} {q : Proc σ ε α}
    {f : ε' → Proc τ ε₂ α} {g : ε → Proc σ ε₁ α} {raised' : ε₁ → ε₂}
    (hp : Projects part raised P p q)
    (hf : ∀ e, Projects part raised' (fun _ => True) (f (raised e)) (g e)) :
    Projects part raised' P (Proc.handle p f) (Proc.handle q g) := by
  intro t ht
  obtain ⟨hexit, hworld, hcrash⟩ := hp t ht
  cases hq : (q (part t)).exit with
  | ok a =>
    rw [hq] at hexit
    rw [handle_of_ok hexit, handle_of_ok hq]
    exact ⟨rfl, hworld, hcrash⟩
  | error e =>
    rw [hq] at hexit
    rw [handle_of_error hexit, handle_of_error hq]
    obtain ⟨hexit', hworld', hcrash'⟩ := hf e (p t).world trivial
    rw [hworld] at hexit' hworld' hcrash'
    exact ⟨hexit', hworld', by rw [List.map_append, hcrash, hcrash']⟩

theorem Projects.mono {P' : τ → Prop} {p : Proc τ ε' α} {q : Proc σ ε α}
    (hp : Projects part raised P p q) (h : ∀ t, P' t → P t) : Projects part raised P' p q :=
  fun t ht => hp t (h t ht)

/-- The part of the world after the run, if a restart restarts the part. -/
theorem Projects.after {p : Proc τ ε' α} {q : Proc σ ε α} {restart : τ → τ}
    {restart' : σ → σ} (hp : Projects part raised P p q)
    (hrestart : ∀ t, part (restart t) = restart' (part t)) {t : τ} (ht : P t)
    (crash : Option Nat) :
    part ((p t).after restart crash) = (q (part t)).after restart' crash := by
  obtain ⟨-, hworld, hcrash⟩ := hp t ht
  cases crash with
  | none => exact hworld
  | some k =>
    show part (restart ((p t).crashPoints.getD k (p t).world)) = _
    rw [hrestart]
    show restart' (part ((p t).crashPoints.getD k (p t).world))
      = restart' ((q (part t)).crashPoints.getD k (q (part t)).world)
    rw [← hcrash, ← hworld, List.getD_eq_getElem?_getD, List.getD_eq_getElem?_getD,
      List.getElem?_map, Option.getD_map]

end Proc

end TraderStack.Lib
