/-
  Templates: what clones are made from changes seldom.

  1. **Renewal (`Session.get?_finishStart`)** — at the end of the start phase the template of every
     entity on stage that is not a clone gets the entity's present catalog; the others stay as they
     are.

  2. **What lasts (`Session.Effect.template`)** — besides, a template changes only if the host saves
     one under its id, or clears the stage.  Nothing that is done between two moments changes it, so
     this can be said of each moment and the next (`Session.Trace.next`).
-/
import BlockStage.Proofs.Chronicle.Faithful

namespace BlockStage

/-- Does a moment save a template under an id, or do away with all of them? -/
def Moment.Saves (id : String) (k : Moment) : Prop :=
  match k.occasion with
  | .call c => c.Saves id ∨ ¬c.KeepsScene
  | _ => False

/-- The session at the next moment, or in the end. -/
def Moment.next (after : List Moment) (t : Session) : Session :=
  match after with
  | [] => t
  | k :: _ => k.session

namespace Session

variable {s t : Session} {id : String}

/-! ## Renewal -/

/-- A template with the present catalog of its entity. -/
def refreshed (s : Session) (id : String) (x : Template) : Template :=
  { x with catalog := (s.catalogs.get? id).getD x.catalog }

/-- The template of an id at the end of the start phase. -/
def renewed? (s : Session) (id : String) : Option Template :=
  if id ∈ s.stage.ids ∧ s.isClone id = false then (s.templates.get? id).map (s.refreshed id)
  else s.templates.get? id

theorem get?_renewTemplate (s : Session) (j id : String) :
    (Play.renewTemplate s j).templates.get? id
      = if id = j then (s.templates.get? id).map (s.refreshed id) else s.templates.get? id := by
  by_cases h : id = j
  · subst h
    rw [if_pos rfl, Play.renewTemplate]
    cases known : s.templates.get? id with
    | none => exact known
    | some x =>
      cases listed : s.catalogs.get? id with
      | none =>
        show s.templates.get? id = _
        rw [known, Option.map_some, refreshed, listed]
        rfl
      | some c =>
        show (s.templates.insert id { x with catalog := c }).get? id = _
        rw [Table.get?_insert, if_pos (beq_self_eq_true id), Option.map_some, refreshed, listed]
        rfl
  · rw [if_neg h, Play.renewTemplate]
    split
    · exact (Table.get?_insert _ _ _ _).trans (if_neg (by rwa [beq_iff_eq]))
    · rfl

/-- Templates that are renewed twice are renewed. -/
theorem refreshed_refreshed (s : Session) (id : String) (x : Template) :
    s.refreshed id (s.refreshed id x) = s.refreshed id x := by
  simp only [refreshed]
  cases s.catalogs.get? id <;> rfl

theorem get?_foldl_renewTemplate (ids : List String) (s : Session) (id : String) :
    (ids.foldl Play.renewTemplate s).templates.get? id
      = if id ∈ ids then (s.templates.get? id).map (s.refreshed id) else s.templates.get? id := by
  induction ids generalizing s with
  | nil => exact (if_neg List.not_mem_nil).symm
  | cons j ids ih =>
    -- renewing one template leaves the catalogs as they are
    have same : (Play.renewTemplate s j).refreshed id = s.refreshed id := by
      rw [Play.renewTemplate_eq]
      rfl
    rw [List.foldl_cons, ih, same, get?_renewTemplate]
    by_cases here : id = j
    · rw [if_pos here, if_pos (List.mem_cons.mpr (.inl here)), Option.map_map]
      have twice : s.refreshed id ∘ s.refreshed id = s.refreshed id :=
        funext (s.refreshed_refreshed id)
      rw [twice, ite_self]
    · rw [if_neg here]
      by_cases later : id ∈ ids
      · rw [if_pos later, if_pos (List.mem_cons_of_mem j later)]
      · rw [if_neg later, if_neg fun h => (List.mem_cons.mp h).elim here later]

/-- **The end of the start phase renews the templates of all originals on stage.** -/
theorem get?_finishStart (s : Session) (id : String) :
    (Play.finishStart s).templates.get? id = s.renewed? id := by
  have original : id ∈ (s.stage.ids.filter fun id => !s.isClone id)
      ↔ id ∈ s.stage.ids ∧ s.isClone id = false := by
    rw [List.mem_filter, Bool.not_eq_true']
  have renewed := get?_foldl_renewTemplate (s.stage.ids.filter fun id => !s.isClone id) s id
  rw [renewed?, ← if_congr original rfl rfl]
  exact renewed

/-! ## What lasts -/

theorem Feats.templates (h : Feats s t) : t.templates = s.templates := by
  induction h with
  | refl => rfl
  | tail _ feat ih => exact feat.deed.fixed.2.2.trans ih

theorem Changes.templates (h : Changes s t) : t.templates = s.templates := by
  induction h with
  | refl => rfl
  | tail _ change ih =>
    refine Eq.trans ?_ ih
    cases change with
    | feat h => exact h.deed.fixed.2.2
    | _ => rfl

theorem templates_requestClone (s : Session) (source : String) :
    (s.requestClone source).2.templates = s.templates :=
  (s.requestClone_step source).fixed.2.2.2

theorem Chores.template {brings saves : String → Prop} {adds : Behavior → Prop}
    (h : Chores brings saves adds s t) (hid : ¬saves id) :
    t.templates.get? id = s.templates.get? id := by
  induction h with
  | refl => rfl
  | tail _ chore ih =>
    refine Eq.trans ?_ ih
    cases chore with
    | trick h => rw [h.feat.deed.fixed.2.2]
    | template x saved h =>
      refine (Table.get?_insert _ _ _ _).trans (if_neg fun same => hid ?_)
      rwa [eq_of_beq same]
    | enroll hd h =>
      obtain ⟨x, stage, -, rfl⟩ := enroll_ok h
      rfl
    | _ => rfl

/-- **A template changes only at the end of the start phase**, or if the host saves it or clears the
    stage. -/
theorem Effect.template {o : Occasion} (h : Effect o s t) (ho : o ≠ .complete)
    (hid : ¬Moment.Saves id ⟨o, s⟩) : t.templates.get? id = s.templates.get? id := by
  cases h with
  | @plain _ c h =>
    have keeps : c.KeepsScene := Classical.not_not.mp fun clears => hid (.inr clears)
    exact (c.chores h keeps s).template fun saved => hid (.inl saved)
  | @work _ entity behavior w h => rw [(w.feats entity s).templates]
  | clone source => rw [templates_requestClone]
  | complete h => exact absurd rfl ho
  | _ => rfl

/-- What comes before the next moment is not seen. -/
theorem Trace.next {A : Occasion → Prop} {l : List Moment} (h : Trace A s l t) :
    Changes s (Moment.next l t) := by
  induction h with
  | start => exact .refl s
  | @change l t u _ k ih =>
    cases l with
    | nil => exact ih.tail k
    | cons x l => exact ih
  | @moment l t u o _ ho k ih =>
    cases l with
    | nil => exact ih
    | cons x l => exact ih

end Session

end BlockStage
