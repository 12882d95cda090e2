/-
  The cast of a stage: who is on it, whatever else happens to them.

  1. **The cast** — the actors' handles, each with the id, the prototype and the costumes of its
     actor.  Only coming and going changes it, and the ids that are registered with it.

  2. **The crux (`SameCast`)** — everything else that can be done on a stage changes actors in their
     place, one by one or all at once, and leaves the cast as it is; a worn costume stays one of
     the costumes.  Who bears an id and who is a clone is read off the cast and the registered ids,
     so it is the same on two stages with the same cast.

  3. **Calm (`Calm`)** — besides, all of it but one thing leaves whoever is stopped stopped: only the
     marks of all actors at once can be taken back (`sameCast_setAllStopped`).  Two lemmas say so
     for the two ways of changing actors (`calm_modify`, `calm_map`), and each operation is put
     together from those.
-/
import BlockStage.Proofs.Table
import BlockStage.Stage.Motion

namespace BlockStage

/-! ## The cast -/

variable {α : Type}

/-- What an actor is, whatever it does: its id, its prototype and its costumes. -/
structure Role (α : Type) where
  id : String
  prototype : Option String
  costumes : List (Costume α)

/-- The role of an actor. -/
def Actor.role (a : Actor α) : Role α := ⟨a.id, a.prototype, a.look.costumes⟩

/-- The worn costume is one of the costumes, if there are any. -/
def Look.Dressed (l : Look α) : Prop := l.costumes ≠ [] → l.current < l.costumes.length

theorem Look.lt_of_find? {l : Look α} {key : String} {i : Nat}
    (h : l.find? key = some i) : i < l.costumes.length := by
  rw [Look.find?] at h
  split at h
  · rename_i j hj
    obtain rfl := Option.some.inj h
    exact (List.findIdx?_eq_some_iff_getElem.mp hj).1
  · exact (List.findIdx?_eq_some_iff_getElem.mp h).1

namespace Stage

/-- The handles of the actors, each with the role of its actor. -/
def cast (s : Stage α) : List (Handle × Role α) := s.actors.entries.map fun e => (e.1, e.2.role)

/-- Is every actor dressed? -/
def Dressed (s : Stage α) : Prop := ∀ e ∈ s.actors.entries, e.2.look.Dressed

theorem keys_eq (s : Stage α) : s.actors.keys = s.cast.map Prod.fst := by
  rw [Table.keys, cast, List.map_map]
  rfl

theorem role_eq (s : Stage α) (h : Handle) : (s.actor? h).map Actor.role = s.cast.lookup h := by
  rw [actor?, Table.get?, cast]
  induction s.actors.entries with
  | nil => rfl
  | cons e rest ih =>
    rw [List.map_cons, List.lookup_cons, List.lookup_cons]
    cases h == e.1 with
    | true => rfl
    | false => exact ih

theorem isClone_eq (s : Stage α) (h : Handle) :
    s.isClone h = ((s.cast.lookup h).bind Role.prototype).isSome := by
  rw [← role_eq, isClone]
  cases s.actor? h <;> rfl

/-! ## Stages with the same cast -/

/-- The second stage has the cast of the first under the same ids, and its actors are dressed if
    those were. -/
structure SameCast (s t : Stage α) : Prop where
  cast : t.cast = s.cast
  next : t.nextHandle = s.nextHandle
  ids : t.ids = s.ids
  index : t.index = s.index
  dressed : s.Dressed → t.Dressed

namespace SameCast

variable {s t u : Stage α}

theorem refl (s : Stage α) : SameCast s s := ⟨rfl, rfl, rfl, rfl, id⟩

theorem trans (h : SameCast s t) (k : SameCast t u) : SameCast s u :=
  ⟨k.cast.trans h.cast, k.next.trans h.next, k.ids.trans h.ids, k.index.trans h.index,
    k.dressed ∘ h.dressed⟩

theorem keys (h : SameCast s t) : t.actors.keys = s.actors.keys := by
  rw [keys_eq, keys_eq, h.cast]

theorem find? (h : SameCast s t) : t.find? = s.find? := by
  funext id
  rw [Stage.find?, Stage.find?, h.index]

theorem handles (h : SameCast s t) : t.handles = s.handles := by
  rw [Stage.handles, Stage.handles, h.ids, h.find?]

/-- An actor of the one stage has its counterpart on the other. -/
theorem role (h : SameCast s t) (x : Handle) :
    (t.actor? x).map Actor.role = (s.actor? x).map Actor.role := by
  rw [role_eq, role_eq, h.cast]

theorem isClone (h : SameCast s t) : t.isClone = s.isClone := by
  funext x
  rw [isClone_eq, isClone_eq, h.cast]

end SameCast

/-! ## Stages on which nobody is woken -/

theorem actor?_modify (s : Stage α) (x h : Handle) (f : Actor α → Actor α) :
    (s.modify x f).actor? h = if h == x then (s.actor? x).map f else s.actor? h :=
  s.actors.get?_modify x h f

/-- The second stage has the cast of the first, and whoever was stopped is stopped. -/
structure Calm (s t : Stage α) : Prop extends SameCast s t where
  stopped : ∀ x, s.isStopped x = true → t.isStopped x = true

namespace Calm

variable {s t u : Stage α}

theorem refl (s : Stage α) : Calm s s := ⟨.refl s, fun _ => id⟩

theorem trans (h : Calm s t) (k : Calm t u) : Calm s u :=
  ⟨h.toSameCast.trans k.toSameCast, fun x hx => k.stopped x (h.stopped x hx)⟩

end Calm

/-! ## The two ways of changing actors -/

theorem sameCast_modify (s : Stage α) (h : Handle) (f : Actor α → Actor α)
    (hf : ∀ a, s.actor? h = some a →
      (f a).role = a.role ∧ (a.look.Dressed → (f a).look.Dressed)) :
    SameCast s (s.modify h f) := by
  rw [modify, Table.modify]
  split
  · rename_i a ha
    obtain ⟨role, dressed⟩ := hf a ha
    refine ⟨?_, rfl, rfl, rfl, ?_⟩
    · exact Table.map_insertEntry (fun e => (e.1, e.2.role)) ha (by rw [role])
    · intro hs e he
      rcases Table.mem_insertEntry he with rfl | h
      · exact dressed (hs _ (Table.mem_of_get? ha))
      · exact hs e h
  · exact .refl s

theorem calm_modify (s : Stage α) (h : Handle) (f : Actor α → Actor α)
    (hf : ∀ a, s.actor? h = some a → (f a).role = a.role ∧
      (a.look.Dressed → (f a).look.Dressed) ∧ (a.stopped = true → (f a).stopped = true)) :
    Calm s (s.modify h f) := by
  refine ⟨s.sameCast_modify h f fun a ha => ⟨(hf a ha).1, (hf a ha).2.1⟩, fun x hx => ?_⟩
  rw [isStopped] at hx ⊢
  rw [actor?_modify]
  by_cases same : (x == h) = true
  · rw [if_pos same]
    rw [eq_of_beq same] at hx
    cases ha : s.actor? h with
    | none =>
      rw [ha] at hx
      cases hx
    | some a =>
      rw [ha] at hx
      exact (hf a ha).2.2 hx
  · rw [if_neg same]
    exact hx

/-- An actor keeps its role when its look keeps the costumes. -/
theorem calm_modify_look (s : Stage α) (h : Handle) (f : Actor α → Actor α)
    (hf : ∀ a, (f a).id = a.id ∧ (f a).prototype = a.prototype ∧ (f a).look = a.look ∧
      (a.stopped = true → (f a).stopped = true)) :
    Calm s (s.modify h f) := by
  refine s.calm_modify h f fun a _ => ?_
  obtain ⟨id, prototype, look, stopped⟩ := hf a
  rw [Actor.role, Actor.role, id, prototype, look]
  exact ⟨rfl, fun d => d, stopped⟩

theorem calm_map (s : Stage α) (f : Actor α → Actor α)
    (hf : ∀ a, (f a).id = a.id ∧ (f a).prototype = a.prototype ∧ (f a).look = a.look ∧
      (a.stopped = true → (f a).stopped = true)) :
    Calm s { s with actors := ⟨s.actors.entries.map fun e => (e.1, f e.2)⟩ } := by
  refine ⟨⟨?_, rfl, rfl, rfl, ?_⟩, fun x hx => ?_⟩
  · rw [cast, cast, List.map_map]
    refine List.map_congr_left fun e _ => ?_
    obtain ⟨id, prototype, look, -⟩ := hf e.2
    show (e.1, (f e.2).role) = (e.1, e.2.role)
    rw [Actor.role, Actor.role, id, prototype, look]
  · intro hs e he
    obtain ⟨e', he', rfl⟩ := List.mem_map.mp he
    show (f e'.2).look.Dressed
    rw [(hf e'.2).2.2.1]
    exact hs e' he'
  · rw [isStopped, actor?] at hx ⊢
    rw [Table.get?_map]
    cases ha : s.actors.get? x with
    | none =>
      rw [ha] at hx
      cases hx
    | some a =>
      rw [ha] at hx
      exact (hf a).2.2.2 hx

theorem calm_foldl {β : Type} (f : Stage α → β → Stage α) (hf : ∀ s x, Calm s (f s x))
    (l : List β) (s : Stage α) : Calm s (l.foldl f s) := by
  induction l generalizing s with
  | nil => exact .refl s
  | cons x l ih => exact (hf s x).trans (ih (f s x))

theorem sameCast_setAllStopped (s : Stage α) (stopped : Bool) :
    SameCast s (s.setAllStopped stopped) := by
  have marked : ∀ (l : List Handle) (s : Stage α), SameCast s
      (l.foldl (fun s h => s.modify h fun a => { a with stopped := stopped }) s) := by
    intro l
    induction l with
    | nil => exact fun s => .refl s
    | cons h l ih =>
      refine fun s => SameCast.trans ?_ (ih _)
      exact s.sameCast_modify h _ fun _ _ => ⟨rfl, id⟩
  exact marked s.handles s

/-! ## Looks and flags -/

theorem calm_modifyBody (s : Stage α) (h : Handle) (f : Body α → Body α) :
    Calm s (s.modifyBody h f) :=
  s.calm_modify_look h _ fun _ => ⟨rfl, rfl, rfl, id⟩

theorem calm_solids (s : Stage α) (solids : Solids) : Calm s { s with solids := solids } :=
  ⟨⟨rfl, rfl, rfl, rfl, id⟩, fun _ => id⟩

theorem calm_record (s : Stage α) (phase : String) : Calm s (s.record phase) :=
  ⟨⟨rfl, rfl, rfl, rfl, id⟩, fun _ => id⟩

theorem calm_setVisible (s : Stage α) (h : Handle) (visible : Bool) :
    Calm s (s.setVisible h visible).2 :=
  s.calm_modify h _ fun _ _ => ⟨rfl, id, id⟩

theorem calm_setDepth (s : Stage α) (h : Handle) (depth : Int) :
    Calm s (s.setDepth h depth).2 :=
  s.calm_modify h _ fun _ _ => ⟨rfl, id, id⟩

theorem calm_switchCostume (s : Stage α) (h : Handle) (key : String) :
    Calm s (s.switchCostume h key).2 := by
  rw [switchCostume]
  split
  · rename_i i hi
    -- the costume that was found is one of the actor's own
    refine s.calm_modify h _ fun a ha => ⟨rfl, fun _ _ => ?_, id⟩
    rw [ha] at hi
    exact Look.lt_of_find? hi
  · exact .refl s

theorem calm_nextCostume (s : Stage α) (h : Handle) : Calm s (s.nextCostume h).2 := by
  rw [nextCostume]
  split
  · split
    · exact .refl s
    · refine s.calm_modify h _ fun a _ => ⟨rfl, fun _ some => ?_, id⟩
      exact Nat.mod_lt _ (List.length_pos_iff.mpr some)
  · exact .refl s

section
variable [Scalar α]

/-! ## Poses -/

theorem calm_carryBody (s : Stage α) (h : Handle) : Calm s (s.carryBody h) := by
  rw [carryBody]
  split
  · exact s.calm_modifyBody h _
  · exact .refl s

theorem calm_setWorld (s : Stage α) (h : Handle) (w : Placement α) :
    Calm s (s.setWorld h w).2 := by
  rw [setWorld]
  split
  · exact .refl s
  · refine Calm.trans ?_ (calm_carryBody _ h)
    exact s.calm_modify_look h _ fun _ => ⟨rfl, rfl, rfl, id⟩

theorem calm_adjustWorld (s : Stage α) (h : Handle) (f : Placement α → Placement α) :
    Calm s (s.adjustWorld h f).2 := by
  rw [adjustWorld]
  split
  · exact s.calm_setWorld h _
  · exact .refl s

theorem calm_resizeCanvas (s : Stage α) (width height : α) :
    Calm s (s.resizeCanvas width height).2 := by
  rw [resizeCanvas]
  split
  · exact .refl s
  · have shifted : ∀ (offset : Vec α) (s : Stage α) (h : Handle), Calm s (shift offset s h) := by
      intro offset s h
      refine Calm.trans ?_ (calm_carryBody _ h)
      exact s.calm_modify_look h _ fun _ => ⟨rfl, rfl, rfl, id⟩
    have moved := calm_foldl (shift (Canvas.middle ⟨width, height⟩ - s.canvas.middle))
      (shifted _) s.rootHandles { s with canvas := ⟨width, height⟩ }
    exact ⟨⟨moved.cast, moved.next, moved.ids, moved.index, moved.dressed⟩, moved.stopped⟩

theorem calm_enablePhysics (s : Stage α) (h : Handle) (settings : BodySettings α) :
    Calm s (s.enablePhysics h settings).2 := by
  rw [enablePhysics]
  split
  · split
    · exact .refl s
    · exact (s.calm_solids _).trans (calm_modify_look _ h _ fun _ => ⟨rfl, rfl, rfl, id⟩)
  · exact .refl s

theorem calm_setVelocity (s : Stage α) (h : Handle) (v : Vec α) :
    Calm s (s.setVelocity h v).2 := s.calm_modifyBody h _

omit [Scalar α] in
theorem calm_setGravityScale (s : Stage α) (h : Handle) (scale : α) :
    Calm s (s.setGravityScale h scale).2 := s.calm_modifyBody h _

/-! ## Attachments -/

theorem calm_detach (s : Stage α) (child : Handle) : Calm s (s.detach child).2 := by
  rw [detach]
  split
  · refine Calm.trans ?_ (calm_modify_look _ child _ fun _ => ⟨rfl, rfl, rfl, id⟩)
    exact s.calm_modify_look _ _ fun _ => ⟨rfl, rfl, rfl, id⟩
  · exact .refl s

theorem calm_link (s : Stage α) (child parent : Handle) (childWorld parentWorld : Placement α) :
    Calm s (s.link child parent childWorld parentWorld) := by
  refine Calm.trans ?_ (calm_modify_look _ parent _ fun _ => ⟨rfl, rfl, rfl, id⟩)
  exact s.calm_modify_look child _ fun _ => ⟨rfl, rfl, rfl, id⟩

theorem calm_attach (s : Stage α) (child parent : Handle) :
    Calm s (s.attach child parent).2 := by
  rw [attach]
  split
  · exact .refl s
  · split
    · exact .refl s
    · refine (s.calm_detach child).trans ?_
      dsimp only
      split
      · exact calm_link _ child parent _ _
      · exact .refl _

/-! ## Physics -/

theorem calm_pinAttached (s : Stage α) : Calm s s.pinAttached := by
  refine calm_foldl _ (fun s h => ?_) _ s
  split
  · exact s.calm_carryBody h
  · exact .refl s

omit [Scalar α] in
theorem calm_noteGround (s : Stage α) (h : Handle) (began : Bool) :
    Calm s (s.noteGround h began).2 := by
  rw [noteGround]
  split
  · exact .refl s
  · exact s.calm_modifyBody h _

omit [Scalar α] in
theorem calm_noteChange (acc : StepReport × Stage α) (change : Bool × Contact) :
    Calm acc.2 (noteChange acc change).2 := by
  rw [noteChange.eq_def]
  split
  · exact acc.2.calm_noteGround _ _
  · exact acc.2.calm_noteGround _ _
  · exact .refl _
  · exact .refl _

omit [Scalar α] in
theorem calm_undergo (s : Stage α) (p : Passage α) : Calm s (s.undergo p).2 := by
  have noted : ∀ (l : List (Bool × Contact)) (acc : StepReport × Stage α),
      Calm acc.2 (l.foldl noteChange acc).2 := by
    intro l
    induction l with
    | nil => intro acc; exact .refl _
    | cons c l ih => intro acc; exact (calm_noteChange acc c).trans (ih _)
  have moved := calm_foldl storeBody (fun s m => s.calm_modifyBody m.1 _) p.bodies s
  refine moved.trans (Calm.trans ?_ (noted _ _))
  exact ⟨⟨rfl, rfl, rfl, rfl, id⟩, fun _ => id⟩

theorem calm_stepBy (engine : Stage α → α → Passage α) (s : Stage α) (dt : α) :
    Calm s (s.stepBy engine dt).2 := by
  -- a step pins attached bodies, counts its phases, moves bodies, and lets actors follow
  have pinned := s.calm_pinAttached.trans (calm_foldl record calm_record stepPhases _)
  have follows : ∀ a : Actor α, (followBody a).id = a.id ∧ (followBody a).prototype = a.prototype ∧
      (followBody a).look = a.look ∧ (a.stopped = true → (followBody a).stopped = true) := by
    intro a
    rw [followBody]
    split <;> exact ⟨rfl, rfl, rfl, id⟩
  have timed : ∀ s : Stage α,
      Calm s (if Scalar.less Scalar.zero dt then s.undergo (engine s dt) else (⟨[], []⟩, s)).2 := by
    intro s
    split
    · exact s.calm_undergo _
    · exact .refl s
  exact (pinned.trans (timed _)).trans (calm_map _ followBody follows)

theorem calm_step (s : Stage α) (dt : α) : Calm s (s.step dt).2 := s.calm_stepBy passage dt

end

end Stage

end BlockStage
