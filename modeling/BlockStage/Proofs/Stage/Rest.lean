/-
  Rest: who does not take part.

  Whoever has been stopped rests, and so does an id that nobody bears (`Stage.Rests`).  Only two
  things end a rest: the marks of all actors are taken back at once, or someone new comes on stage
  under the id.  Coming, going and all that is calm lets everyone else rest.
-/
import BlockStage.Proofs.Stage.Roster

namespace BlockStage

namespace Stage

variable {α : Type} {s t : Stage α} {id : String}

/-- Nobody bears the id, or whoever bears it has been stopped. -/
def Rests (s : Stage α) (id : String) : Prop := ∀ x, s.find? id = some x → s.isStopped x = true

/-- Nobody bears the id. -/
theorem rests_of_none (h : s.find? id = none) : s.Rests id := by
  intro x hx
  rw [h] at hx
  cases hx

theorem Rests.calm (hs : s.Rests id) (h : Calm s t) : t.Rests id := by
  intro x hx
  rw [h.find?] at hx
  exact h.stopped x (hs x hx)

/-- Whoever comes on stage, everyone else rests who rested before. -/
theorem Rests.spawned {d : Spawn α} {h : Handle} (hs : s.Rests id) (k : Spawned s d h t)
    (other : d.id ≠ id) : t.Rests id := by
  intro x hx
  rw [k.find?, if_neg fun same => other (eq_of_beq same).symm] at hx
  exact k.stopped x (hs x hx)

/-- Whoever goes, everyone rests who rested before. -/
theorem Rests.despawned {gone : String} {h : Handle} (hs : s.Rests id) (order : s.Orderly)
    (k : Despawned s gone h t) : t.Rests id := by
  by_cases same : id = gone
  · refine rests_of_none ?_
    rw [k.find?, same, if_pos (beq_self_eq_true gone)]
  · intro x hx
    rw [k.find?, if_neg fun h => same (eq_of_beq h)] at hx
    refine k.stopped x (fun shared => same ?_) (hs x hx)
    -- a handle leads to the one actor that bears its id
    obtain ⟨a, ha, rfl⟩ := order.bears id x hx
    obtain ⟨b, hb, rfl⟩ := order.bears gone h k.found
    rw [shared] at ha
    exact congrArg Actor.id (Option.some.inj (ha.symm.trans hb))

/-! ## Stopping -/

/-- Whoever is stopped rests. -/
theorem Orderly.rests_stopped (hs : s.Orderly) {x : Handle} (hx : s.find? id = some x) :
    (s.modify x fun a => { a with stopped := true }).Rests id := by
  intro y hy
  have same : s.find? id = some y := hy
  obtain rfl := Option.some.inj (hx.symm.trans same)
  obtain ⟨a, ha, -⟩ := hs.bears id x hx
  rw [isStopped, actor?_modify, if_pos (beq_self_eq_true x), ha]
  rfl

/-- Stopping some actors stops them, and whoever was stopped before stays so. -/
theorem isStopped_foldl (l : List Handle) (s : Stage α) {x : Handle} (there : (s.actor? x).isSome)
    (hx : x ∈ l ∨ s.isStopped x = true) :
    (l.foldl (fun s h => s.modify h fun a => { a with stopped := true }) s).isStopped x = true := by
  induction l generalizing s with
  | nil => exact hx.resolve_left List.not_mem_nil
  | cons y l ih =>
    obtain ⟨a, ha⟩ := Option.isSome_iff_exists.mp there
    have next : (s.modify y fun a => { a with stopped := true }).actor? x
        = some (if x = y then { a with stopped := true } else a) := by
      rw [actor?_modify]
      by_cases same : x = y
      · subst same
        rw [if_pos (beq_self_eq_true x), if_pos rfl, ha]
        rfl
      · rw [if_neg (fun h => same (eq_of_beq h)), if_neg same, ha]
    refine ih _ (by rw [next]; rfl) ?_
    by_cases same : x = y
    · refine .inr ?_
      rw [isStopped, next, if_pos same]
    · refine hx.imp (fun listed => (List.mem_cons.mp listed).resolve_left same) fun stopped => ?_
      rw [isStopped, ha] at stopped
      rw [isStopped, next, if_neg same]
      exact stopped

/-- When all are stopped, everyone rests. -/
theorem Orderly.rests_setAllStopped (hs : s.Orderly) (id : String) :
    (s.setAllStopped true).Rests id := by
  intro x hx
  rw [(s.sameCast_setAllStopped true).find?] at hx
  obtain ⟨a, ha, -⟩ := hs.bears id x hx
  refine isStopped_foldl s.handles s (by rw [ha]; rfl) (.inl ?_)
  exact List.mem_filterMap.mpr ⟨id, hs.mem_ids.mpr ⟨x, hx⟩, hx⟩

end Stage

end BlockStage
