/-
  Operations: everything that can be done to a stage, and what it does to the ties of the actors.

  1. **The operations (`Op`)** — coming and going, links, poses, looks, marks, bodies, and steps of
     physics.  A step is given what becomes of the bodies, and that may be anything.

  2. **Ties** — an actor is tied to its parent, to its children, and by two keys to what physics
     knows of its body.

  3. **The crux (`Overlooks`)** — links, coming and going, and the making of bodies apart, operations
     change places, looks, marks and the motion of bodies.  Whatever is read off the actors and
     overlooks these stays as it is (`Overlooks.apply`); the ties are such a thing.
-/
import BlockStage.Proofs.Stage.Solids

namespace BlockStage

namespace Stage

variable {α : Type}

/-! ## Operations -/

/-- What can be done to a stage.  Handles may be stale or may never have been given out. -/
inductive Op (α : Type) where
  | spawn (d : Spawn α)
  | despawn (id : String)
  | clear
  | attach (child parent : Handle)
  | detach (child : Handle)
  | enablePhysics (h : Handle) (settings : BodySettings α)
  | setPosition (h : Handle) (p : Vec α)
  | setDirection (h : Handle) (degrees : α)
  | setScale (h : Handle) (scale : Vec α)
  | resizeCanvas (width height : α)
  | setVelocity (h : Handle) (v : Vec α)
  | setGravityScale (h : Handle) (scale : α)
  | setVisible (h : Handle) (visible : Bool)
  | setDepth (h : Handle) (depth : Int)
  | switchCostume (h : Handle) (key : String)
  | nextCostume (h : Handle)
  | mark (h : Handle) (stopped : Bool)
  | step (engine : Stage α → α → Passage α) (dt : α)

variable [Scalar α]

/-- The stage after an operation, also one that is refused. -/
def Op.apply (s : Stage α) : Op α → Stage α
  | .spawn d =>
    match s.spawn d with
    | .ok (_, t) => t
    | .error _ => s
  | .despawn id => (s.despawn id).2
  | .clear => s.clear
  | .attach child parent => (s.attach child parent).2
  | .detach child => (s.detach child).2
  | .enablePhysics h settings => (s.enablePhysics h settings).2
  | .setPosition h p => (s.setPosition h p).2
  | .setDirection h degrees => (s.setDirection h degrees).2
  | .setScale h scale => (s.setScale h scale).2
  | .resizeCanvas width height => (s.resizeCanvas width height).2
  | .setVelocity h v => (s.setVelocity h v).2
  | .setGravityScale h scale => (s.setGravityScale h scale).2
  | .setVisible h visible => (s.setVisible h visible).2
  | .setDepth h depth => (s.setDepth h depth).2
  | .switchCostume h key => (s.switchCostume h key).2
  | .nextCostume h => (s.nextCostume h).2
  | .mark h stopped => (s.setStopped? h stopped).getD s
  | .step engine dt => (s.stepBy engine dt).2

/-- The stage after some operations. -/
def perform (s : Stage α) (ops : List (Op α)) : Stage α := ops.foldl Op.apply s

/-- Every operation keeps the ids, the handles and the actors in order. -/
theorem Orderly.apply {s : Stage α} (hs : s.Orderly) (op : Op α) : (op.apply s).Orderly := by
  cases op with
  | spawn d =>
    rw [Op.apply]
    split
    · rename_i ht
      exact (spawned_of_spawn hs.fresh ht).orderly hs
    · exact hs
  | despawn id =>
    rw [Op.apply]
    cases found : s.find? id with
    | some h => exact (despawned_of_find? found).1.orderly hs
    | none =>
      rw [despawn, found]
      exact hs
  | clear => exact hs.clear
  | attach child parent => exact hs.sameCast (s.calm_attach child parent).toSameCast
  | detach child => exact hs.sameCast (s.calm_detach child).toSameCast
  | enablePhysics h settings => exact hs.sameCast (s.calm_enablePhysics h settings).toSameCast
  | setPosition h p => exact hs.sameCast (s.calm_adjustWorld h _).toSameCast
  | setDirection h degrees => exact hs.sameCast (s.calm_adjustWorld h _).toSameCast
  | setScale h scale => exact hs.sameCast (s.calm_adjustWorld h _).toSameCast
  | resizeCanvas width height => exact hs.sameCast (s.calm_resizeCanvas width height).toSameCast
  | setVelocity h v => exact hs.sameCast (s.calm_setVelocity h v).toSameCast
  | setGravityScale h scale => exact hs.sameCast (s.calm_setGravityScale h scale).toSameCast
  | setVisible h visible => exact hs.sameCast (s.calm_setVisible h visible).toSameCast
  | setDepth h depth => exact hs.sameCast (s.calm_setDepth h depth).toSameCast
  | switchCostume h key => exact hs.sameCast (s.calm_switchCostume h key).toSameCast
  | nextCostume h => exact hs.sameCast (s.calm_nextCostume h).toSameCast
  | mark h stopped =>
    rw [Op.apply, setStopped?]
    split
    · exact hs.sameCast (s.sameCast_modify h _ fun _ _ => ⟨rfl, id⟩)
    · exact hs
  | step engine dt => exact hs.sameCast (s.calm_stepBy engine dt).toSameCast

end Stage

/-! ## Ties -/

/-- What ties an actor to others and to physics. -/
structure Ties where
  parent : Option Handle
  children : List Handle
  keys : Option (BodyKey × ColliderKey)

variable {α : Type}

/-- The keys under which physics knows a body and its collider. -/
def Body.keys (b : Body α) : BodyKey × ColliderKey := (b.key, b.collider)

/-- The ties of an actor. -/
def Actor.ties (a : Actor α) : Ties := ⟨a.parent, a.children, a.body.map Body.keys⟩

/-- What only physics changes about an actor's body: its keys, and its count of contacts with the
    ground. -/
def Actor.feet (a : Actor α) : Option ((BodyKey × ColliderKey) × Nat) :=
  a.body.map fun b => (b.keys, b.grounds)

theorem Actor.feet_of_body {a a' : Actor α} {f : Body α → Body α}
    (changed : a'.body = a.body.map f)
    (hf : ∀ b, (f b).keys = b.keys ∧ (f b).grounds = b.grounds) : a'.feet = a.feet := by
  rw [feet, changed, Option.map_map]
  exact congrArg (Option.map · a.body) (funext fun b => Prod.ext (hf b).1 (hf b).2)

namespace Stage

variable {s t u : Stage α}

/-- The ties of a live actor. -/
def ties? (s : Stage α) (h : Handle) : Option Ties := (s.actor? h).map Actor.ties

/-- Under which keys physics should know the bodies of the actors. -/
def chart (s : Stage α) : Chart := fun h => (s.body? h).map Body.keys

theorem parent?_eq (s : Stage α) (h : Handle) : s.parent? h = (s.ties? h).bind Ties.parent := by
  rw [parent?, ties?]
  cases s.actor? h <;> rfl

theorem children_eq (s : Stage α) (h : Handle) :
    s.children h = ((s.ties? h).map Ties.children).getD [] := by
  rw [children, ties?]
  cases s.actor? h <;> rfl

theorem chart_eq (s : Stage α) (h : Handle) : s.chart h = (s.ties? h).bind Ties.keys := by
  rw [chart, body?, ties?]
  cases s.actor? h <;> rfl

theorem isSome_ties? (s : Stage α) (h : Handle) : (s.ties? h).isSome = (s.actor? h).isSome :=
  Option.isSome_map

/-- What is read off the actors stays if the change of one of them leaves it. -/
theorem map_actor?_modify {β : Type} (s : Stage α) (g : Actor α → β) (x h : Handle)
    {f : Actor α → Actor α} (hf : ∀ a, g (f a) = g a) :
    ((s.modify x f).actor? h).map g = (s.actor? h).map g := by
  rw [actor?_modify]
  split
  · rename_i same
    rw [eq_of_beq same, Option.map_map]
    exact congrArg (Option.map · _) (funext hf)
  · rfl

theorem isSome_actor?_modify (s : Stage α) (x h : Handle) (f : Actor α → Actor α) :
    ((s.modify x f).actor? h).isSome = (s.actor? h).isSome := by
  have same := s.map_actor?_modify (fun _ => ()) x h (f := f) fun _ => rfl
  rw [← Option.isSome_map, same, Option.isSome_map]

/-! ## Stages with the same ties -/

/-- Every actor is tied as it was, and physics knows what it knew. -/
structure SameTies (s t : Stage α) : Prop where
  ties : ∀ x, t.ties? x = s.ties? x
  solids : t.solids = s.solids

namespace SameTies

theorem trans (h : SameTies s t) (k : SameTies t u) : SameTies s u :=
  ⟨fun x => (k.ties x).trans (h.ties x), k.solids.trans h.solids⟩

theorem parent? (h : SameTies s t) (x : Handle) : t.parent? x = s.parent? x := by
  rw [parent?_eq, parent?_eq, h.ties]

theorem children (h : SameTies s t) (x : Handle) : t.children x = s.children x := by
  rw [children_eq, children_eq, h.ties]

theorem chart (h : SameTies s t) (x : Handle) : t.chart x = s.chart x := by
  rw [chart_eq, chart_eq, h.ties]

end SameTies

/-! ## What is read off the actors -/

/-- Something that is read off an actor, whatever its place, its looks and its mark, and of whose body
    only the keys and the count of contacts with the ground matter. -/
structure Overlooks {β : Type} (g : Actor α → β) : Prop where
  placed : ∀ a p, g { a with placement := p } = g a
  dressed : ∀ a l, g { a with look := l } = g a
  marked : ∀ a m, g { a with stopped := m } = g a
  moved : ∀ a (f : Body α → Body α), (∀ b, (f b).keys = b.keys ∧ (f b).grounds = b.grounds) →
    g { a with body := a.body.map f } = g a

/-- What is read off the actors is as it was, and so is what physics knows of them and of their
    contacts. -/
structure SameSight {β : Type} (g : Actor α → β) (s t : Stage α) : Prop where
  seen : ∀ x, (t.actor? x).map g = (s.actor? x).map g
  solids : t.solids = s.solids
  contacts : t.contacts = s.contacts
  nextHandle : t.nextHandle = s.nextHandle

/-- The ties of an actor overlook everything that is not a tie. -/
theorem overlooks_ties : Overlooks (Actor.ties (α := α)) where
  placed _ _ := rfl
  dressed _ _ := rfl
  marked _ _ := rfl
  moved a f hf := by
    show Ties.mk a.parent a.children ((a.body.map f).map Body.keys) = a.ties
    have same : Body.keys ∘ f = Body.keys := funext fun b => (hf b).1
    rw [Option.map_map, same]
    rfl

namespace SameSight

variable {β : Type} {g : Actor α → β}

theorem refl (s : Stage α) : SameSight g s s := ⟨fun _ => rfl, rfl, rfl, rfl⟩

theorem trans (h : SameSight g s t) (k : SameSight g t u) : SameSight g s u :=
  ⟨fun x => (k.seen x).trans (h.seen x), k.solids.trans h.solids, k.contacts.trans h.contacts,
    k.nextHandle.trans h.nextHandle⟩

theorem foldl {γ : Type} {f : Stage α → γ → Stage α} (hf : ∀ s x, SameSight g s (f s x)) (l : List γ)
    (s : Stage α) : SameSight g s (l.foldl f s) := by
  induction l generalizing s with
  | nil => exact .refl s
  | cons x l ih => exact (hf s x).trans (ih (f s x))

theorem isSome_actor? (h : SameSight g s t) (x : Handle) :
    (t.actor? x).isSome = (s.actor? x).isSome := by
  rw [← Option.isSome_map, h.seen, Option.isSome_map]

theorem sameTies (h : SameSight Actor.ties s t) : SameTies s t := ⟨h.seen, h.solids⟩

end SameSight

section
variable {β : Type} {g : Actor α → β}

/-- A change that cannot be read off an actor cannot be read off any. -/
theorem sameSight_modify (s : Stage α) (h : Handle) {f : Actor α → Actor α}
    (hf : ∀ a, g (f a) = g a) : SameSight g s (s.modify h f) :=
  ⟨fun x => s.map_actor?_modify g h x hf, rfl, rfl, rfl⟩

theorem sameSight_record (s : Stage α) (phase : String) : SameSight g s (s.record phase) :=
  ⟨fun _ => rfl, rfl, rfl, rfl⟩

namespace Overlooks

theorem modifyBody (hg : Overlooks g) (s : Stage α) (h : Handle) {f : Body α → Body α}
    (hf : ∀ b, (f b).keys = b.keys ∧ (f b).grounds = b.grounds) :
    SameSight g s (s.modifyBody h f) :=
  s.sameSight_modify h fun a => hg.moved a f hf

theorem changeLook (hg : Overlooks g) (s : Stage α) (h : Handle) (f : Look α → Look α) :
    SameSight g s (s.changeLook h f).2 :=
  s.sameSight_modify h fun a => hg.dressed a (f a.look)

theorem switchCostume (hg : Overlooks g) (s : Stage α) (h : Handle) (key : String) :
    SameSight g s (s.switchCostume h key).2 := by
  rw [Stage.switchCostume]
  split
  · exact hg.changeLook s h _
  · exact .refl s

theorem nextCostume (hg : Overlooks g) (s : Stage α) (h : Handle) :
    SameSight g s (s.nextCostume h).2 := by
  rw [Stage.nextCostume]
  split
  · split
    · exact .refl s
    · exact hg.changeLook s h _
  · exact .refl s

theorem mark (hg : Overlooks g) (s : Stage α) (h : Handle) (stopped : Bool) :
    SameSight g s ((s.setStopped? h stopped).getD s) := by
  rw [setStopped?]
  split
  · exact s.sameSight_modify h fun a => hg.marked a stopped
  · exact .refl s

variable [Scalar α]

theorem carryBody (hg : Overlooks g) (s : Stage α) (h : Handle) : SameSight g s (s.carryBody h) := by
  rw [Stage.carryBody]
  split
  · exact hg.modifyBody s h fun _ => ⟨rfl, rfl⟩
  · exact .refl s

theorem setWorld (hg : Overlooks g) (s : Stage α) (h : Handle) (w : Placement α) :
    SameSight g s (s.setWorld h w).2 := by
  rw [Stage.setWorld]
  split
  · exact .refl s
  · refine SameSight.trans ?_ (hg.carryBody _ h)
    exact s.sameSight_modify h fun a => hg.placed a _

theorem adjustWorld (hg : Overlooks g) (s : Stage α) (h : Handle) (f : Placement α → Placement α) :
    SameSight g s (s.adjustWorld h f).2 := by
  rw [Stage.adjustWorld]
  split
  · exact hg.setWorld s h _
  · exact .refl s

theorem shift (hg : Overlooks g) (offset : Vec α) (s : Stage α) (h : Handle) :
    SameSight g s (shift offset s h) := by
  refine SameSight.trans ?_ (hg.carryBody _ h)
  exact s.sameSight_modify h fun a => hg.placed a _

/-- A canvas of another size gets a ground and walls of its own, and that is all that is seen of it. -/
theorem resizeCanvas (hg : Overlooks g) (s : Stage α) (width height : α) :
    ((s.resizeCanvas width height).1 = false ∧ (s.resizeCanvas width height).2 = s) ∨
      ((s.resizeCanvas width height).1 = true ∧ ∃ u, SameSight g s u ∧
        (s.resizeCanvas width height).2
          = { u with solids := u.solids.rebuild u.physics.ground u.physics.walls }) := by
  rw [Stage.resizeCanvas]
  split
  · exact .inl ⟨rfl, rfl⟩
  · have moved := SameSight.foldl (g := g)
      (hg.shift (Canvas.middle ⟨width, height⟩ - s.canvas.middle)) s.rootHandles
      { s with canvas := ⟨width, height⟩ }
    exact .inr ⟨rfl, _, ⟨moved.seen, moved.solids, moved.contacts, moved.nextHandle⟩, rfl⟩

theorem pinAttached (hg : Overlooks g) (s : Stage α) : SameSight g s s.pinAttached := by
  refine SameSight.foldl (fun s h => ?_) _ s
  split
  · exact hg.carryBody s h
  · exact .refl s

omit [Scalar α] in
theorem storeBody (hg : Overlooks g) (s : Stage α) (m : Moving α) : SameSight g s (s.storeBody m) :=
  hg.modifyBody s m.1 fun _ => ⟨rfl, rfl⟩

theorem followBody (hg : Overlooks g) (s : Stage α) :
    SameSight g s { s with actors := ⟨s.actors.entries.map fun e => (e.1, followBody e.2)⟩ } := by
  refine ⟨fun x => ?_, rfl, rfl, rfl⟩
  rw [actor?, Table.get?_map, Option.map_map, actor?]
  refine congrArg (Option.map · _) (funext fun a => ?_)
  show g (Stage.followBody a) = g a
  rw [Stage.followBody]
  split
  · exact hg.placed a _
  · rfl

end Overlooks

end

/-! ## Keys and counts -/

theorem overlooks_feet : Overlooks (Actor.feet (α := α)) where
  placed _ _ := rfl
  dressed _ _ := rfl
  marked _ _ := rfl
  moved _ _ hf := Actor.feet_of_body rfl hf

theorem map_body?_eq {β : Type} (s : Stage α) (h : Handle) (g : (BodyKey × ColliderKey) × Nat → β) :
    ((s.body? h).map fun b => g (b.keys, b.grounds)) = ((s.actor? h).map Actor.feet).join.map g := by
  rw [body?]
  cases s.actor? h with
  | none => rfl
  | some a => exact (Option.map_map g (fun b => (b.keys, b.grounds)) a.body).symm

theorem SameSight.map_body? {β : Type} (h : SameSight Actor.feet s t) (x : Handle)
    (g : (BodyKey × ColliderKey) × Nat → β) :
    ((t.body? x).map fun b => g (b.keys, b.grounds))
      = (s.body? x).map fun b => g (b.keys, b.grounds) := by
  rw [map_body?_eq, map_body?_eq, h.seen]

theorem SameSight.chart (h : SameSight Actor.feet s t) : t.chart = s.chart :=
  funext fun x => h.map_body? x Prod.fst

theorem SameSight.charted (h : SameSight Actor.feet s t) (hs : s.solids.Charted s.chart) :
    t.solids.Charted t.chart := by
  rw [h.solids, h.chart]
  exact hs

section
variable [Scalar α]

/-- Links come and go without regard to keys and counts. -/
theorem sameSight_detach (s : Stage α) (child : Handle) :
    SameSight Actor.feet s (s.detach child).2 := by
  rw [detach]
  split
  · rename_i parent _
    refine SameSight.trans ?_ (sameSight_modify _ child fun a =>
      Actor.feet_of_body rfl fun _ => ⟨rfl, rfl⟩)
    exact s.sameSight_modify parent fun _ => rfl
  · exact .refl s

theorem sameSight_attach (s : Stage α) (child parent : Handle) :
    SameSight Actor.feet s (s.attach child parent).2 := by
  have linked : ∀ (t : Stage α) (cw pw : Placement α),
      SameSight Actor.feet t (t.link child parent cw pw) := by
    intro t cw pw
    refine SameSight.trans ?_ (sameSight_modify _ parent fun _ => rfl)
    exact t.sameSight_modify child fun a => Actor.feet_of_body rfl fun _ => ⟨rfl, rfl⟩
  rw [attach]
  split
  · exact .refl s
  split
  · exact .refl s
  dsimp only
  split
  · exact (s.sameSight_detach child).trans (linked _ _ _)
  · exact s.sameSight_detach child

/-- The stage on which an actor has got a body. -/
def enter (s : Stage α) (h : Handle) (b : Body α) : Stage α :=
  { s with solids := (s.solids.addOwned h).2 }.modify h fun a => { a with body := some b }

/-- An actor that gets a body gets one under new keys, and it counts no contacts yet. -/
theorem enablePhysics_cases (s : Stage α) (h : Handle) (settings : BodySettings α) :
    (s.enablePhysics h settings).2 = s ∨ ∃ a b, s.actor? h = some a ∧ a.body = none ∧
      b.keys = (s.solids.nextBody, s.solids.nextCollider) ∧ b.grounds = 0 ∧
      (s.enablePhysics h settings).2 = s.enter h b := by
  rw [enablePhysics]
  split
  · rename_i a w ha _
    split
    · exact .inl rfl
    · rename_i bare
      exact .inr ⟨a, _, ha, Option.not_isSome_iff_eq_none.mp bare, rfl, rfl, rfl⟩
  · exact .inl rfl

omit [Scalar α] in
/-- Who has a body after someone has got one. -/
theorem body?_enter {h : Handle} {a : Actor α} (ha : s.actor? h = some a) (b : Body α) (x : Handle) :
    (s.enter h b).body? x = if x = h then some b else s.body? x := by
  have there : ({ s with solids := (s.solids.addOwned h).2 } : Stage α).actor? h = some a := ha
  rw [enter, body?, actor?_modify]
  by_cases same : x = h
  · rw [if_pos (beq_iff_eq.mpr same), if_pos same, there]
    rfl
  · rw [if_neg fun eq => same (eq_of_beq eq), if_neg same]
    rfl

omit [Scalar α] in
/-- Who has a body after someone has left. -/
theorem body?_depart (s : Stage α) (h x : Handle) :
    ((s.disembody h).dismiss h).body? x = if x = h then none else s.body? x := by
  have found : ((s.disembody h).dismiss h).actor? x = if x == h then none else s.actor? x :=
    s.actors.get?_erase h x
  rw [body?, found]
  by_cases same : x = h
  · rw [if_pos (beq_iff_eq.mpr same), if_pos same]
    rfl
  · rw [if_neg fun eq => same (eq_of_beq eq), if_neg same]
    rfl

/-- When an actor leaves, it is taken out of physics and off the stage once its links are gone. -/
theorem despawn_eq (s : Stage α) {id : String} {h : Handle} (found : s.find? id = some h) :
    ∃ w, SameSight Actor.feet s w ∧ (s.despawn id).2 = (w.disembody h).dismiss h := by
  rw [despawn, found]
  have struck : SameSight Actor.feet s
      { s with index := s.index.erase id, ids := s.ids.filter fun other => other != id } :=
    ⟨fun _ => rfl, rfl, rfl, rfl⟩
  exact ⟨_, struck.trans ((SameSight.foldl sameSight_detach _ _).trans (sameSight_detach _ h)), rfl⟩

end

/-! ## Operations that can be overlooked -/

variable [Scalar α]

/-- Operations on poses, looks, marks and the motion of bodies. -/
def Op.Superficial : Op α → Prop
  | .setPosition .. | .setDirection .. | .setScale .. | .setVelocity .. | .setGravityScale ..
  | .setVisible .. | .setDepth .. | .switchCostume .. | .nextCostume .. | .mark .. => True
  | _ => False

/-- Such an operation leaves what is read off the actors. -/
theorem Overlooks.apply {β : Type} {g : Actor α → β} (hg : Overlooks g) (s : Stage α) {op : Op α}
    (superficial : op.Superficial) : SameSight g s (op.apply s) := by
  cases op with
  | setPosition h p => exact hg.adjustWorld s h _
  | setDirection h degrees => exact hg.adjustWorld s h _
  | setScale h scale => exact hg.adjustWorld s h _
  | setVelocity h v =>
    refine hg.modifyBody s h fun b => ?_
    split <;> exact ⟨rfl, rfl⟩
  | setGravityScale h scale => exact hg.modifyBody s h fun _ => ⟨rfl, rfl⟩
  | setVisible h visible => exact hg.changeLook s h _
  | setDepth h depth => exact hg.changeLook s h _
  | switchCostume h key => exact hg.switchCostume s h key
  | nextCostume h => exact hg.nextCostume s h
  | mark h stopped => exact hg.mark s h stopped
  | _ => cases superficial

/-! ## Steps of physics -/

/-- The stage on which a step asks what becomes of the bodies. -/
def poised (s : Stage α) : Stage α := stepPhases.foldl record s.pinAttached

/-- A step pins bodies, lets time pass if it takes any, and has actors follow their bodies. -/
theorem stepBy_eq (engine : Stage α → α → Passage α) (s : Stage α) (dt : α) :
    ∃ t, (Scalar.less Scalar.zero dt = true ∧ t = (s.poised.undergo (engine s.poised dt)).2 ∨
        Scalar.less Scalar.zero dt = false ∧ t = s.poised) ∧
      (s.stepBy engine dt).2
        = { t with actors := ⟨t.actors.entries.map fun e => (e.1, followBody e.2)⟩ } := by
  rw [stepBy]
  cases Scalar.less Scalar.zero dt with
  | true => exact ⟨_, .inl ⟨rfl, rfl⟩, rfl⟩
  | false => exact ⟨_, .inr ⟨rfl, rfl⟩, rfl⟩

theorem Overlooks.poised {β : Type} {g : Actor α → β} (hg : Overlooks g) (s : Stage α) :
    SameSight g s s.poised :=
  (hg.pinAttached s).trans (SameSight.foldl (fun s phase => s.sameSight_record phase) stepPhases _)

omit [Scalar α] in
/-- Taking note of contacts changes counts alone. -/
theorem sameSight_noteChange (acc : StepReport × Stage α) (change : Bool × Contact) :
    SameSight Actor.ties acc.2 (noteChange acc change).2 := by
  have noted : ∀ (s : Stage α) (h : Handle) (began : Bool),
      SameSight Actor.ties s (s.noteGround h began).2 := by
    intro s h began
    rw [noteGround]
    split
    · exact .refl s
    · refine s.sameSight_modify h fun a => ?_
      show Ties.mk a.parent a.children ((a.body.map _).map Body.keys) = a.ties
      rw [Option.map_map]
      rfl
  rw [noteChange.eq_def]
  split
  · exact noted acc.2 _ _
  · exact noted acc.2 _ _
  · exact .refl _
  · exact .refl _

omit [Scalar α] in
theorem sameSight_foldl_noteChange (changes : List (Bool × Contact)) (acc : StepReport × Stage α) :
    SameSight Actor.ties acc.2 (changes.foldl noteChange acc).2 := by
  induction changes generalizing acc with
  | nil => exact .refl _
  | cons c changes ih => exact (sameSight_noteChange acc c).trans (ih _)

omit [Scalar α] in
theorem sameTies_undergo (s : Stage α) (p : Passage α) : SameTies s (s.undergo p).2 := by
  have moved := (SameSight.foldl overlooks_ties.storeBody p.bodies s).sameTies
  refine moved.trans (SameTies.trans ?_ (sameSight_foldl_noteChange p.changes _).sameTies)
  exact ⟨fun _ => rfl, rfl⟩

theorem sameTies_stepBy (engine : Stage α → α → Passage α) (s : Stage α) (dt : α) :
    SameTies s (s.stepBy engine dt).2 := by
  obtain ⟨t, passed, same⟩ := stepBy_eq engine s dt
  have begun := (overlooks_ties.poised s).sameTies
  have ended := (overlooks_ties.followBody t).sameTies
  rw [same]
  rcases passed with ⟨-, rfl⟩ | ⟨-, rfl⟩
  · exact (begun.trans (sameTies_undergo _ _)).trans ended
  · exact begun.trans ended

end Stage

end BlockStage
