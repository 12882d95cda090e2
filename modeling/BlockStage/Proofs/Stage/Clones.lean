/-
  Clones on stage: how many of the actors are clones.

  The clones are counted by the ids that name them.  Whatever keeps the cast keeps their number;
  a clone that comes on stage is one more, any other actor none; and whoever leaves takes away
  themselves and nobody else.
-/
import BlockStage.Proofs.Stage.Roster

namespace BlockStage

namespace Stage

variable {α : Type}

/-- The number of clones. -/
def clones (s : Stage α) : Nat := (s.handles.filter s.isClone).length

/-- Is an id that of a clone? -/
def namesClone (s : Stage α) (id : String) : Bool := (s.find? id).any s.isClone

theorem clones_eq (s : Stage α) : s.clones = s.ids.countP s.namesClone := by
  rw [clones, handles]
  induction s.ids with
  | nil => rfl
  | cons id rest ih =>
    rw [List.countP_cons, ← ih, List.filterMap_cons, namesClone]
    cases s.find? id with
    | none => rfl
    | some h =>
      rw [Option.any_some, List.filter_cons]
      split
      · rfl
      · rfl

theorem isClone_of_role {s t : Stage α} {x y : Handle}
    (h : (t.actor? y).map Actor.role = (s.actor? x).map Actor.role) :
    t.isClone y = s.isClone x := by
  rw [isClone_eq, isClone_eq, ← role_eq, ← role_eq, h]

theorem SameCast.clones {s t : Stage α} (h : SameCast s t) : t.clones = s.clones := by
  rw [Stage.clones, Stage.clones, h.handles, h.isClone]

/-- Whoever comes on stage is one clone more if they are one. -/
theorem Spawned.clones_add {s t : Stage α} {d : Spawn α} {h : Handle} (k : Spawned s d h t)
    (hs : s.Orderly) : t.clones = s.clones + if d.prototype.isSome then 1 else 0 := by
  -- the new actor has a handle and an id of its own, so the others are what they were
  have old : ∀ id ∈ s.ids, t.namesClone id = s.namesClone id := by
    intro id hid
    obtain ⟨x, hx⟩ := hs.mem_ids.mp hid
    have other : ¬(id == d.id) = true := fun same => k.notMem hs (eq_of_beq same ▸ hid)
    have there : ¬(x == h) = true := fun same =>
      hs.fresh (k.handle ▸ eq_of_beq same ▸ hs.mem_keys_of_find? hx)
    rw [namesClone, namesClone, k.find?, if_neg other, hx, Option.any_some, Option.any_some]
    refine isClone_of_role ?_
    rw [k.role hs, if_neg there]
  have new : t.namesClone d.id = d.prototype.isSome := by
    have role := k.role hs h
    rw [if_pos (beq_self_eq_true h)] at role
    rw [namesClone, k.find?, if_pos (beq_self_eq_true d.id), Option.any_some, isClone_eq, ← role_eq,
      role]
    rfl
  have same : s.ids.countP t.namesClone = s.ids.countP s.namesClone :=
    List.countP_congr fun id hid => by rw [old id hid]
  rw [clones_eq, clones_eq, k.ids, List.countP_append, List.countP_singleton, new, same]

/-- A clone that comes on stage is one more. -/
theorem Spawned.clones {s t : Stage α} {d : Spawn α} {h : Handle} (k : Spawned s d h t)
    (hs : s.Orderly) (clone : d.prototype.isSome = true) : t.clones = s.clones + 1 := by
  rw [k.clones_add hs, if_pos clone]

/-- Whoever comes on stage and is no clone changes nothing. -/
theorem Spawned.clones_of_bare {s t : Stage α} {d : Spawn α} {h : Handle} (k : Spawned s d h t)
    (hs : s.Orderly) (bare : d.prototype = none) : t.clones = s.clones := by
  rw [k.clones_add hs, bare]
  rfl

/-- Whoever leaves the stage is one clone less if they were one. -/
theorem Despawned.clones_add {s t : Stage α} {id : String} {h : Handle} (k : Despawned s id h t)
    (hs : s.Orderly) : s.clones = t.clones + if s.namesClone id then 1 else 0 := by
  have kept : ∀ j ∈ t.ids, t.namesClone j = s.namesClone j := by
    intro j hj
    obtain ⟨other, hj⟩ := (k.mem_ids j).mp hj
    obtain ⟨x, hx⟩ := hs.mem_ids.mp hj
    -- handles are not shared, so the handle of another id is still there
    have there : ¬(x == h) = true := by
      intro same
      obtain ⟨a, ha, bears⟩ := hs.bears j x hx
      obtain ⟨b, hb, gone⟩ := hs.bears id h k.found
      rw [eq_of_beq same, hb] at ha
      exact other (bears.symm.trans (congrArg Actor.id (Option.some.inj ha).symm |>.trans gone))
    rw [namesClone, namesClone, k.find?, if_neg (fun same => other (eq_of_beq same)), hx,
      Option.any_some, Option.any_some]
    refine isClone_of_role ?_
    rw [k.role, if_neg there]
  have listed : s.ids.Perm (id :: t.ids) := by
    have mem := hs.mem_ids.mpr ⟨h, k.found⟩
    rw [k.ids, ← hs.ids.erase_eq_filter]
    exact List.perm_cons_erase mem
  have same : t.ids.countP s.namesClone = t.ids.countP t.namesClone :=
    List.countP_congr fun j hj => by rw [kept j hj]
  rw [clones_eq, clones_eq, listed.countP_eq, List.countP_cons, same]

theorem Despawned.clones_le {s t : Stage α} {id : String} {h : Handle} (k : Despawned s id h t)
    (hs : s.Orderly) : t.clones ≤ s.clones := by
  rw [k.clones_add hs]
  exact Nat.le_add_right _ _

/-- Who leaves the stage was at most one clone. -/
theorem Despawned.clones {s t : Stage α} {id : String} {h : Handle} (k : Despawned s id h t)
    (hs : s.Orderly) : s.clones ≤ t.clones + 1 := by
  rw [k.clones_add hs]
  split <;> omega

end Stage

end BlockStage
