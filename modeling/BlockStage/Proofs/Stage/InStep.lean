/-
  In step: bodies stand and face as the actors that they belong to.

  1. **Specification (`Actor.Placed`, `Actor.Faced`)** — the body of an actor without a parent is where
     the actor is, and the direction was last given to the body, or read from it.  Attached actors are
     exempt, since their bodies are pinned to them at the next step.

  2. **The crux** — there are only two ways to change a pose that is not exempt: the actor is moved
     and then carries its body (`all_carryBody`), or the actor follows its body (`inStep_followBody`).
     Both bring the two in step whatever they were before, so no step of physics can do harm.

  3. **The gap** — whoever is taken off a parent gets the place on the canvas, and so does the body; but
     the body keeps its own direction.  So an actor falls out of step exactly if it is released while
     its body faces another way than it does (`Askew`).

  4. **Runs** — bodies are always placed (`placed_of_perform`), and faced at every moment exactly if
     nobody is released askew (`faced_of_perform_iff`).
-/
import BlockStage.Proofs.Geometry.Exact
import BlockStage.Proofs.Stage.Links

namespace BlockStage

variable {α : Type}

/-! ## Poses -/

/-- The body of an actor that is not attached is where the actor is. -/
def Actor.Placed (a : Actor α) : Prop :=
  a.parent = none → ∀ b, a.body = some b → b.center = a.placement.offset

/-- A body has the direction of a rotation, or the rotation has been read off it. -/
def Body.Faces [Scalar α] (b : Body α) (rotation : α) : Prop :=
  b.heading = Vec.ofAngle rotation ∨ rotation = b.rotation

/-- The body of an actor that is not attached faces as the actor does. -/
def Actor.Faced [Scalar α] (a : Actor α) : Prop :=
  a.parent = none → ∀ b, a.body = some b → b.Faces a.placement.rotation

/-- What decides whether a body is in step with its actor. -/
structure Posture (α : Type) where
  parent : Option Handle
  placement : Placement α
  center : Option (Vec α)
  heading : Option (Vec α)

/-- The posture of an actor. -/
def Actor.posture (a : Actor α) : Posture α :=
  ⟨a.parent, a.placement, a.body.map Body.center, a.body.map Body.heading⟩

theorem Actor.posture_body (a : Actor α) {f : Body α → Body α}
    (hf : ∀ b, (f b).center = b.center ∧ (f b).heading = b.heading) :
    ({ a with body := a.body.map f } : Actor α).posture = a.posture := by
  have center : Body.center ∘ f = Body.center := funext fun b => (hf b).1
  have heading : Body.heading ∘ f = Body.heading := funext fun b => (hf b).2
  rw [posture, posture, Option.map_map, Option.map_map, center, heading]

/-- A property that every actor has whose body is in step, and that only the posture decides. -/
structure Actor.Poised [Scalar α] (P : Actor α → Prop) : Prop where
  posture : ∀ {a a'}, a'.posture = a.posture → P a → P a'
  inStep : ∀ {a}, a.Placed → a.Faced → P a

theorem Actor.placed_of_posture {a a' : Actor α} (same : a'.posture = a.posture) (ha : a.Placed) :
    a'.Placed := by
  obtain ⟨parent, placement, center, -⟩ := Posture.mk.inj same
  intro free b hb
  rw [hb] at center
  obtain ⟨b', hb', at'⟩ := Option.map_eq_some_iff.mp center.symm
  rw [placement, ← at']
  exact ha (parent ▸ free) b' hb'

theorem Actor.faced_of_posture [Scalar α] {a a' : Actor α} (same : a'.posture = a.posture)
    (ha : a.Faced) : a'.Faced := by
  obtain ⟨parent, placement, -, heading⟩ := Posture.mk.inj same
  intro free b hb
  rw [hb] at heading
  obtain ⟨b', hb', at'⟩ := Option.map_eq_some_iff.mp heading.symm
  have turned := ha (parent ▸ free) b' hb'
  rw [Body.Faces, Body.rotation, at'] at turned
  rw [placement]
  exact turned

/-- A body that has been given the place and the direction of its actor is in step. -/
theorem Actor.Poised.inStep_of_given [Scalar α] {P : Actor α → Prop} (hP : Poised P) {a : Actor α}
    {w : Placement α} (root : a.parent = none → w = a.placement)
    (given : ∀ b, a.body = some b → b.center = w.offset ∧ b.heading = Vec.ofAngle w.rotation) :
    P a := by
  refine hP.inStep (fun free b hb => ?_) fun free b hb => .inl ?_
  · rw [← root free]
    exact (given b hb).1
  · rw [← root free]
    exact (given b hb).2

theorem Actor.poised_placed [Scalar α] : Actor.Poised (Actor.Placed (α := α)) :=
  ⟨placed_of_posture, fun placed _ => placed⟩

theorem Actor.poised_faced [Scalar α] : Actor.Poised (Actor.Faced (α := α)) :=
  ⟨faced_of_posture, fun _ faced => faced⟩

namespace Stage

variable {s t : Stage α} {who : Handle → Prop} {P : Actor α → Prop} {h : Handle}

/-! ## Properties of actors -/

/-- Has every live actor among some the property? -/
def All (s : Stage α) (who : Handle → Prop) (P : Actor α → Prop) : Prop :=
  ∀ x, who x → ∀ a, s.actor? x = some a → P a

/-- The body of every actor that is not attached is where the actor is. -/
def Placed (s : Stage α) : Prop := s.All (fun _ => True) Actor.Placed

/-- The body of every actor that is not attached faces as the actor does. -/
def Faced [Scalar α] (s : Stage α) : Prop := s.All (fun _ => True) Actor.Faced

namespace All

theorem others (hs : s.All (fun _ => True) P) : s.All (· ≠ h) P := fun x _ => hs x trivial

/-- Who is changed keeps the property if the change keeps it. -/
theorem modify (hs : s.All who P) (h : Handle) {f : Actor α → Actor α} (hf : ∀ a, P a → P (f a)) :
    (s.modify h f).All who P := by
  intro x hx a ha
  rw [actor?_modify] at ha
  split at ha
  · rename_i same
    obtain ⟨b, hb, rfl⟩ := Option.map_eq_some_iff.mp ha
    exact hf b (hs x hx b (eq_of_beq same ▸ hb))
  · exact hs x hx a ha

/-- Whatever is done to one actor, the others keep the property. -/
theorem modify_other (hs : s.All (· ≠ h) P) (f : Actor α → Actor α) :
    (s.modify h f).All (· ≠ h) P := by
  intro x hx a ha
  rw [actor?_modify, if_neg fun same => hx (eq_of_beq same)] at ha
  exact hs x hx a ha

/-- One actor is brought to have the property. -/
theorem modify_self (hs : s.All (· ≠ h) P) {f : Actor α → Actor α}
    (hf : ∀ a, s.actor? h = some a → P (f a)) : (s.modify h f).All (fun _ => True) P := by
  intro x _ a ha
  rw [actor?_modify] at ha
  split at ha
  · obtain ⟨b, hb, rfl⟩ := Option.map_eq_some_iff.mp ha
    exact hf b hb
  · rename_i other
    exact hs x (fun same => other (beq_iff_eq.mpr same)) a ha

theorem foldl {β : Type} {f : Stage α → β → Stage α} (hs : s.All who P)
    (hf : ∀ s x, s.All who P → (f s x).All who P) (l : List β) : (l.foldl f s).All who P := by
  induction l generalizing s with
  | nil => exact hs
  | cons x l ih => exact ih (hf s x hs)

end All

section
variable [Scalar α]

/-! ## Carrying and following -/

/-- An actor that is not attached is where its placement says. -/
theorem eq_placement_of_world? {a : Actor α} {w : Placement α} (ha : s.actor? h = some a)
    (hw : s.world? h = some w) (free : a.parent = none) : w = a.placement := by
  rw [world?, ha, Option.map_some, free] at hw
  exact (Option.some.inj hw).symm

/-- **Carrying**: whoever carries its body is in step with it. -/
theorem all_carryBody (hP : Actor.Poised P) {h : Handle} (hs : s.All (· ≠ h) P) :
    (s.carryBody h).All (fun _ => True) P := by
  rw [carryBody]
  split
  · rename_i w hw
    refine hs.modify_self fun a ha => ?_
    have root := eq_placement_of_world? ha hw
    refine hP.inStep_of_given root fun b hb => ?_
    obtain ⟨c, -, rfl⟩ := Option.map_eq_some_iff.mp hb
    exact ⟨rfl, rfl⟩
  · -- nobody is there to carry a body
    rename_i gone
    have nobody := s.isSome_world? h
    rw [gone] at nobody
    intro x _ a ha
    refine hs x (fun same => ?_) a ha
    rw [← same, ha] at nobody
    cases nobody

theorem all_setWorld (hP : Actor.Poised P) (hs : s.All (fun _ => True) P) (h : Handle)
    (w : Placement α) : (s.setWorld h w).2.All (fun _ => True) P := by
  rw [setWorld]
  split
  · exact hs
  · exact all_carryBody hP (hs.others.modify_other _)

theorem all_adjustWorld (hP : Actor.Poised P) (hs : s.All (fun _ => True) P) (h : Handle)
    (f : Placement α → Placement α) : (s.adjustWorld h f).2.All (fun _ => True) P := by
  rw [adjustWorld]
  split
  · exact all_setWorld hP hs h _
  · exact hs

theorem all_resizeCanvas (hP : Actor.Poised P) (hs : s.All (fun _ => True) P) (width height : α) :
    (s.resizeCanvas width height).2.All (fun _ => True) P := by
  rw [resizeCanvas]
  split
  · exact hs
  · have placed : ({ s with canvas := ⟨width, height⟩ } : Stage α).All (fun _ => True) P := hs
    exact placed.foldl
      (fun s h (hs : s.All (fun _ => True) P) => all_carryBody hP (hs.others.modify_other _))
      s.rootHandles

/-- A new body is in step with its actor. -/
theorem all_enablePhysics (hP : Actor.Poised P) (hs : s.All (fun _ => True) P) (h : Handle)
    (settings : BodySettings α) : (s.enablePhysics h settings).2.All (fun _ => True) P := by
  rw [enablePhysics]
  split
  · rename_i a w ha hw
    split
    · exact hs
    · have others : ({ s with solids := (s.solids.addOwned h).2 } : Stage α).All (· ≠ h) P :=
        hs.others
      refine others.modify_self fun a' ha' => ?_
      have root := eq_placement_of_world? (s := s) ha' hw
      refine hP.inStep_of_given root fun b hb => ?_
      obtain rfl := Option.some.inj hb
      exact ⟨rfl, rfl⟩
  · exact hs

/-- Someone who comes on stage comes without a body, or in step with it. -/
theorem all_spawn (hP : Actor.Poised P) (hs : s.All (fun _ => True) P) {d : Spawn α} {h : Handle}
    (ht : s.spawn d = .ok (h, t)) : t.All (fun _ => True) P := by
  obtain ⟨-, rfl⟩ := eq_of_spawn ht
  let u := s.receive (s.actorOf d)
  have placed : u.All (fun _ => True) P := by
    intro x _ a ha
    rw [actor?_receive] at ha
    split at ha
    · obtain rfl := Option.some.inj ha
      exact hP.inStep (fun _ b hb => (by cases hb)) fun _ b hb => (by cases hb)
    · exact hs x trivial a ha
  have embodied : (u.embody s.nextHandle d.body).All (fun _ => True) P :=
    embody_keeps (P := (All · _ P)) placed (all_enablePhysics hP placed _) d.body
  exact embodied

/-- **Following**: whoever follows its body is in step with it. -/
theorem inStep_followBody (a : Actor α) : (followBody a).Placed ∧ (followBody a).Faced := by
  rw [followBody]
  split
  · rename_i b free embodied
    refine ⟨fun _ c hc => ?_, fun _ c hc => ?_⟩
    · have same : a.body = some c := hc
      rw [embodied] at same
      rw [Option.some.inj same]
    · have same : a.body = some c := hc
      rw [embodied] at same
      exact .inr (by rw [Option.some.inj same])
  · rename_i attached
    exact ⟨fun free b hb => absurd hb (attached b free), fun free b hb => absurd hb (attached b free)⟩

/-- **A step of physics** brings everyone in step, whatever becomes of the bodies. -/
theorem all_stepBy (hP : Actor.Poised P) (engine : Stage α → α → Passage α) (s : Stage α) (dt : α) :
    (s.stepBy engine dt).2.All (fun _ => True) P := by
  have follows : ∀ u : Stage α,
      ({ u with actors := ⟨u.actors.entries.map fun e => (e.1, followBody e.2)⟩ } : Stage α).All
        (fun _ => True) P := by
    intro u x _ a ha
    rw [actor?, Table.get?_map] at ha
    obtain ⟨b, -, rfl⟩ := Option.map_eq_some_iff.mp ha
    obtain ⟨placed, faced⟩ := inStep_followBody b
    exact hP.inStep placed faced
  exact follows _

/-! ## Releasing -/

/-- An actor is attached, and its body faces another way than it does on the canvas. -/
def Askew (s : Stage α) (h : Handle) : Prop :=
  ∃ a b w, s.actor? h = some a ∧ a.parent.isSome = true ∧ a.body = some b ∧
    s.world? h = some w ∧ ¬b.Faces w.rotation

theorem posture_detach_other (s : Stage α) {child x : Handle} (other : x ≠ child) :
    ((s.detach child).2.actor? x).map Actor.posture = (s.actor? x).map Actor.posture := by
  rw [detach]
  split
  · rename_i parent _
    show ((s.release child parent).actor? x).map _ = _
    rw [release, actor?_modify, if_neg fun same => other (eq_of_beq same)]
    exact s.map_actor?_modify Actor.posture parent x fun _ => rfl
  · rfl

/-- Whoever is detached stays as it was without a parent, or gets its place on the canvas, and its
    body with it. -/
theorem actor?_detach_self {child : Handle} {a' : Actor α}
    (ha' : (s.detach child).2.actor? child = some a') :
    (s.actor? child = some a' ∧ a'.parent = none) ∨
      ∃ a w, s.actor? child = some a ∧ a.parent.isSome = true ∧ s.world? child = some w ∧
        a'.parent = none ∧ a'.placement = w ∧
        a'.body = a.body.map fun b => { b with pinned := false, center := w.offset } := by
  rw [detach] at ha'
  split at ha'
  · rename_i parent linked
    obtain ⟨a, ha, parented⟩ := Option.bind_eq_some_iff.mp linked
    obtain ⟨w, hw⟩ := Option.isSome_iff_exists.mp ((s.isSome_world? child).trans (ha ▸ rfl))
    have released : (s.release child parent).actor? child = some a' := ha'
    rw [release, actor?_modify, if_pos (beq_self_eq_true child), hw] at released
    obtain ⟨c, hc, rfl⟩ := Option.map_eq_some_iff.mp released
    -- the list of children is all that was changed before
    have body : (some c).map Actor.body = (some a).map Actor.body := by
      rw [← hc, ← ha]
      exact s.map_actor?_modify Actor.body parent child fun _ => rfl
    refine .inr ⟨a, w, ha, by rw [parented]; rfl, hw, rfl, rfl, ?_⟩
    rw [← Option.some.inj body]
    rfl
  · rename_i loose
    have same : s.actor? child = some a' := ha'
    rw [parent?, same] at loose
    exact .inl ⟨same, loose⟩

theorem placed_detach {who : Handle → Prop} (hs : s.All who Actor.Placed) (child : Handle) :
    (s.detach child).2.All who Actor.Placed := by
  intro x hx a' ha'
  by_cases same : x = child
  · rw [same] at ha' hx
    rcases actor?_detach_self ha' with ⟨old, -⟩ | ⟨a, w, -, -, -, -, placement, body⟩
    · exact hs child hx a' old
    · intro _ b hb
      rw [body] at hb
      obtain ⟨c, -, rfl⟩ := Option.map_eq_some_iff.mp hb
      rw [placement]
  · have there := s.posture_detach_other same
    rw [ha'] at there
    obtain ⟨a, ha, posture⟩ := Option.map_eq_some_iff.mp there.symm
    exact Actor.placed_of_posture posture.symm (hs x hx a ha)

/-- **Releasing**: bodies face as their actors do afterwards exactly if they did so before, and
    nobody has been released askew. -/
theorem faced_detach_iff (s : Stage α) (who : Handle → Prop) (child : Handle) :
    (s.detach child).2.All who Actor.Faced ↔
      s.All who Actor.Faced ∧ ¬(who child ∧ s.Askew child) := by
  have others : ∀ x a, s.actor? x = some a → x ≠ child →
      ∃ a', (s.detach child).2.actor? x = some a' ∧ a'.posture = a.posture := by
    intro x a ha other
    have there := s.posture_detach_other other
    rw [ha] at there
    exact Option.map_eq_some_iff.mp there
  constructor
  · refine fun ht => ⟨fun x hx a ha free => ?_, ?_⟩
    · by_cases same : x = child
      · -- whoever has no parent is left alone
        have loose : s.parent? child = none := by
          rw [parent?, ← same, ha]
          exact free
        have kept : (s.detach child).2 = s := by rw [detach, loose]
        rw [kept] at ht
        exact ht x hx a ha free
      · obtain ⟨a', ha', posture⟩ := others x a ha same
        exact Actor.faced_of_posture posture.symm (ht x hx a' ha') free
    · rintro ⟨hchild, a, b, w, ha, attached, embodied, hw, askew⟩
      obtain ⟨a', ha'⟩ := Option.isSome_iff_exists.mp
        ((s.isSome_actor?_detach child child).trans (ha ▸ rfl))
      rcases actor?_detach_self ha' with ⟨old, free⟩ | ⟨c, v, hc, -, hv, free, placement, body⟩
      · rw [Option.some.inj (ha.symm.trans old), free] at attached
        cases attached
      · obtain rfl := Option.some.inj (ha.symm.trans hc)
        obtain rfl := Option.some.inj (hw.symm.trans hv)
        rw [embodied] at body
        have faced := ht child hchild a' ha' free _ body
        rw [placement] at faced
        exact askew faced
  · rintro ⟨hs, straight⟩ x hx a' ha'
    by_cases same : x = child
    · rw [same] at ha' hx
      rcases actor?_detach_self ha' with ⟨old, -⟩ | ⟨a, w, ha, attached, hw, -, placement, body⟩
      · exact hs child hx a' old
      · intro _ b hb
        rw [body] at hb
        obtain ⟨c, embodied, rfl⟩ := Option.map_eq_some_iff.mp hb
        rw [placement]
        by_contra askew
        exact straight ⟨hx, a, c, w, ha, attached, embodied, hw, askew⟩
    · have there := s.posture_detach_other same
      rw [ha'] at there
      obtain ⟨a, ha, posture⟩ := Option.map_eq_some_iff.mp there.symm
      exact Actor.faced_of_posture posture.symm (hs x hx a ha)

/-- Is someone released askew who stays, when some are detached one by one and one leaves? -/
def ReleasesAskew (leaver : Handle) (s : Stage α) : List Handle → Prop
  | [] => False
  | child :: l => (child ≠ leaver ∧ s.Askew child) ∨ ReleasesAskew leaver (s.detach child).2 l

theorem faced_foldl_detach_iff (leaver : Handle) (l : List Handle) (s : Stage α) :
    (l.foldl (fun s child => (s.detach child).2) s).All (· ≠ leaver) Actor.Faced ↔
      s.All (· ≠ leaver) Actor.Faced ∧ ¬ReleasesAskew leaver s l := by
  induction l generalizing s with
  | nil => exact (and_iff_left id).symm
  | cons child l ih =>
    rw [List.foldl_cons, ih, faced_detach_iff, ReleasesAskew, not_or, and_assoc]

omit [Scalar α] in
/-- Whoever leaves does not count any more. -/
theorem all_dismiss_iff (s : Stage α) (h : Handle) :
    (s.dismiss h).All (fun _ => True) P ↔ s.All (· ≠ h) P := by
  have found : ∀ x, (s.dismiss h).actor? x = if x == h then none else s.actor? x :=
    s.actors.get?_erase h
  constructor
  · intro hs x hx a ha
    refine hs x trivial a ?_
    rw [found, if_neg fun same => hx (eq_of_beq same)]
    exact ha
  · intro hs x _ a ha
    rw [found] at ha
    split at ha
    · cases ha
    · rename_i other
      exact hs x (fun same => other (beq_iff_eq.mpr same)) a ha

omit [Scalar α] in
theorem all_clear (hs : s.All (fun _ => True) P) : s.clear.All (fun _ => True) P := by
  have left := hs.foldl (fun s h (hs : s.All (fun _ => True) P) => (s.all_dismiss_iff h).mpr hs.others)
    s.index.values
  exact left

/-! ## Linking -/

/-- Whoever is linked is exempt, and the parent stays as it is. -/
theorem all_link (hP : Actor.Poised P) {child : Handle} (hs : s.All (· ≠ child) P)
    (parent : Handle) (cw pw : Placement α) : (s.link child parent cw pw).All (fun _ => True) P := by
  have linked : (s.modify child fun a => { a with
      parent := some parent
      placement := pw.seenFrom cw
      body := a.body.map fun b => { b with pinned := true } }).All (fun _ => True) P :=
    hs.modify_self fun a _ => hP.inStep (fun free => (by cases free)) fun free => (by cases free)
  exact linked.modify parent fun a => hP.posture rfl

/-- Whatever an attempt to attach comes to, it ends with a new link, or with the child taken off its
    old parent for a new one that is gone, or with nothing done. -/
theorem attach_cases (s : Stage α) (child parent : Handle) :
    (s.attach child parent = (.error .itself, s)) ∨ (s.attach child parent = (.error .cycle, s)) ∨
      (s.attach child parent = (.error .notLive, (s.detach child).2)) ∨
      ∃ cw pw, s.attach child parent = (.ok (), (s.detach child).2.link child parent cw pw) := by
  rw [attach]
  split
  · exact .inl rfl
  split
  · exact .inr (.inl rfl)
  dsimp only
  split
  · exact .inr (.inr (.inr ⟨_, _, rfl⟩))
  · exact .inr (.inr (.inl rfl))

/-! ## Steps and runs -/

/-- The stage on which an id has been struck off the list. -/
def strike (s : Stage α) (id : String) : Stage α :=
  { s with index := s.index.erase id, ids := s.ids.filter fun other => other != id }

/-- Does an operation release someone askew who stays on stage? -/
def Op.Slips (s : Stage α) : Op α → Prop
  | .detach child => s.Askew child
  | .attach child parent => (s.attach child parent).1 = .error .notLive ∧ s.Askew child
  | .despawn id => ∃ h, s.find? id = some h ∧ ReleasesAskew h (s.strike id) (s.children h)
  | _ => False

theorem placed_despawn (hs : s.Placed) (id : String) : (s.despawn id).2.Placed := by
  rw [despawn]
  split
  · exact hs
  · rename_i h _
    have struck : (s.strike id).Placed := hs
    have released := struck.foldl (f := fun s child => (s.detach child).2)
      (fun s child hs => placed_detach hs child) ((s.strike id).children h)
    exact (all_dismiss_iff _ h).mpr (placed_detach released h).others

theorem faced_despawn_iff (hs : s.Faced) (id : String) :
    (s.despawn id).2.Faced ↔ ¬Op.Slips s (.despawn id) := by
  rw [despawn, Op.Slips]
  split
  · rename_i none
    refine iff_of_true hs ?_
    rintro ⟨h, found, -⟩
    rw [none] at found
    cases found
  · rename_i h found
    have struck : (s.strike id).All (· ≠ h) Actor.Faced := All.others (s := s) hs
    have only : (∃ x, s.find? id = some x ∧ ReleasesAskew x (s.strike id) (s.children x)) ↔
        ReleasesAskew h (s.strike id) (s.children h) := by
      constructor
      · rintro ⟨x, same, slips⟩
        rwa [Option.some.inj (found.symm.trans same)]
      · exact fun slips => ⟨h, found, slips⟩
    rw [only]
    -- that the actor itself is detached as well changes nothing for the others
    refine (all_dismiss_iff _ h).trans ?_
    show (((((s.strike id).children h).foldl (fun s child => (s.detach child).2)
      (s.strike id)).detach h).2).All (· ≠ h) Actor.Faced ↔ _
    rw [faced_detach_iff, faced_foldl_detach_iff, and_iff_left fun own => own.1 rfl,
      and_iff_right struck]
    rfl

theorem placed_attach (hs : s.Placed) (child parent : Handle) : (s.attach child parent).2.Placed := by
  rcases s.attach_cases child parent with same | same | same | ⟨cw, pw, same⟩ <;> rw [same]
  · exact hs
  · exact hs
  · exact placed_detach hs child
  · exact all_link Actor.poised_placed (placed_detach hs child).others parent cw pw

theorem faced_attach_iff (hs : s.Faced) (child parent : Handle) :
    (s.attach child parent).2.Faced ↔ ¬Op.Slips s (.attach child parent) := by
  rw [Op.Slips]
  rcases s.attach_cases child parent with same | same | same | ⟨cw, pw, same⟩ <;> rw [same]
  · exact iff_of_true hs fun slip => (by cases slip.1)
  · exact iff_of_true hs fun slip => (by cases slip.1)
  · refine (faced_detach_iff s _ child).trans ⟨fun h slip => h.2 ⟨trivial, slip.2⟩, fun h => ?_⟩
    exact ⟨hs, fun slip => h ⟨rfl, slip.2⟩⟩
  · refine iff_of_true ?_ fun slip => (by cases slip.1)
    -- a link makes the child exempt, in step or not
    have others : (s.detach child).2.All (· ≠ child) Actor.Faced :=
      (faced_detach_iff s _ child).mpr ⟨hs.others, fun own => own.1 rfl⟩
    exact all_link Actor.poised_faced others parent cw pw

/-- An operation that neither takes links away nor adds any keeps everyone in step. -/
theorem all_apply (hP : Actor.Poised P) (hs : s.All (fun _ => True) P) {op : Op α}
    (despawn : ∀ id, op ≠ .despawn id) (attach : ∀ child parent, op ≠ .attach child parent)
    (detach : ∀ child, op ≠ .detach child) : (op.apply s).All (fun _ => True) P := by
  have kept : ∀ (h : Handle) {f : Actor α → Actor α}, (∀ a, (f a).posture = a.posture) →
      (s.modify h f).All (fun _ => True) P :=
    fun h _ hf => hs.modify h fun a => hP.posture (hf a)
  cases op with
  | despawn id => exact absurd rfl (despawn id)
  | attach child parent => exact absurd rfl (attach child parent)
  | detach child => exact absurd rfl (detach child)
  | spawn d =>
    rw [Op.apply]
    split
    · exact all_spawn hP hs ‹_›
    · exact hs
  | clear => exact all_clear hs
  | enablePhysics h settings => exact all_enablePhysics hP hs h settings
  | setPosition h p => exact all_adjustWorld hP hs h _
  | setDirection h degrees => exact all_adjustWorld hP hs h _
  | setScale h scale => exact all_adjustWorld hP hs h _
  | resizeCanvas width height => exact all_resizeCanvas hP hs width height
  | setVelocity h v =>
    refine kept h fun a => a.posture_body fun b => ?_
    split <;> exact ⟨rfl, rfl⟩
  | setGravityScale h scale => exact kept h fun a => a.posture_body fun _ => ⟨rfl, rfl⟩
  | setVisible h visible => exact kept h fun _ => rfl
  | setDepth h depth => exact kept h fun _ => rfl
  | switchCostume h key =>
    rw [Op.apply, switchCostume]
    split
    · exact kept h fun _ => rfl
    · exact hs
  | nextCostume h =>
    rw [Op.apply, nextCostume]
    split
    · split
      · exact hs
      · exact kept h fun _ => rfl
    · exact hs
  | mark h stopped =>
    rw [Op.apply, setStopped?]
    split
    · exact kept h fun _ => rfl
    · exact hs
  | step engine dt => exact all_stepBy hP engine s dt

/-- **The step lemma for places**: every operation keeps bodies where their actors are. -/
theorem placed_apply (hs : s.Placed) (op : Op α) : (op.apply s).Placed := by
  cases op with
  | despawn id => exact placed_despawn hs id
  | attach child parent => exact placed_attach hs child parent
  | detach child => exact placed_detach hs child
  | _ => exact all_apply Actor.poised_placed hs (by rintro _ ⟨⟩) (by rintro _ _ ⟨⟩) (by rintro _ ⟨⟩)

/-- **The step lemma for directions**: an operation keeps them exactly if it releases nobody askew. -/
theorem faced_apply_iff (hs : s.Faced) (op : Op α) : (op.apply s).Faced ↔ ¬op.Slips s := by
  cases op with
  | despawn id => exact faced_despawn_iff hs id
  | attach child parent => exact faced_attach_iff hs child parent
  | detach child =>
    refine (faced_detach_iff s _ child).trans ⟨fun h slip => h.2 ⟨trivial, slip⟩, fun h => ?_⟩
    exact ⟨hs, fun slip => h slip.2⟩
  | _ =>
    refine iff_of_true ?_ id
    exact all_apply Actor.poised_faced hs (by rintro _ ⟨⟩) (by rintro _ _ ⟨⟩) (by rintro _ ⟨⟩)

/-- **When bodies and actors are in step.**  At every moment of a run the bodies of actors that are
    not attached are where the actors are; and at every moment they face as the actors do, exactly if
    the run never releases an actor whose body faces another way than it does. -/
theorem inStep_of_perform_iff (canvas : Canvas α) (physics : PhysicsConfig α) (ops : List (Op α)) :
    (∀ done, done <+: ops → ((Stage.new canvas physics).perform done).Placed) ∧
      ((∀ done, done <+: ops → ((Stage.new canvas physics).perform done).Faced) ↔
        ∀ done op, done ++ [op] <+: ops → ¬op.Slips ((Stage.new canvas physics).perform done)) := by
  have nobody : ∀ P : Actor α → Prop, (Stage.new canvas physics).All (fun _ => True) P :=
    fun _ _ _ _ ha => (by cases ha)
  refine ⟨fun done _ => ?_,
    always_foldl_iff (P := Faced) (f := Op.apply) (fun hs op => faced_apply_iff hs op) (nobody _) ops⟩
  have placed : ∀ (l : List (Op α)) (s : Stage α), s.Placed → (s.perform l).Placed := by
    intro l
    induction l with
    | nil => exact fun s hs => hs
    | cons op l ih => exact fun s hs => ih (op.apply s) (placed_apply hs op)
  exact placed done _ (nobody _)

/-! ## A sync without time -/

/-- Pinning concerns attached actors only. -/
theorem actor?_pinAttached {x : Handle} {a : Actor α} (ha : s.actor? x = some a)
    (free : a.parent = none) : s.pinAttached.actor? x = some a := by
  have kept : ∀ (l : List Handle) (u : Stage α), u.actor? x = some a →
      (l.foldl (fun s h => if (s.parent? h).isSome then s.carryBody h else s) u).actor? x = some a := by
    intro l
    induction l with
    | nil => exact fun u hu => hu
    | cons h l ih =>
      refine fun u hu => ih _ ?_
      show (if (u.parent? h).isSome then u.carryBody h else u).actor? x = some a
      split
      · rename_i attached
        have other : ¬(x == h) = true := by
          intro same
          rw [← eq_of_beq same, parent?, hu, Option.bind_some, free] at attached
          cases attached
        rw [carryBody]
        split
        · rw [modifyBody, actor?_modify, if_neg other]
          exact hu
        · exact hu
      · exact hu
  exact kept s.actors.keys s ha

/-- What a step that takes no time makes of an actor that is not attached. -/
theorem actor?_still (engine : Stage α → α → Passage α) {dt : α}
    (still : Scalar.less Scalar.zero dt = false) {x : Handle} {a : Actor α}
    (ha : s.actor? x = some a) (free : a.parent = none) :
    (s.stepBy engine dt).2.actor? x = some (followBody a) := by
  have counted : ∀ (l : List String) (u : Stage α), (l.foldl record u).actor? x = u.actor? x := by
    intro l
    induction l with
    | nil => exact fun _ => rfl
    | cons phase l ih => exact fun u => ih (u.record phase)
  have found := (counted stepPhases s.pinAttached).trans (actor?_pinAttached ha free)
  rw [stepBy, still]
  show (⟨(stepPhases.foldl record s.pinAttached).actors.entries.map
    fun e => (e.1, followBody e.2)⟩ : Table Handle (Actor α)).get? x = _
  rw [Table.get?_map]
  exact congrArg (Option.map followBody) found

end

/-! ## Exactly -/

/-- Without rounding, a body that faces as its actor does is turned as much, up to whole turns. -/
theorem turn_of_faces {b : Body ℝ} {r : ℝ} (h : b.Faces r) : (b.rotation : Real.Angle) = r := by
  rcases h with given | read
  · rw [Body.rotation, given]
    exact Vec.angle_ofAngle r
  · rw [read]

/-- **Who is in step does not jump**: without rounding, a step of physics that takes no time leaves
    an actor where it is and turned as it is, up to whole turns. -/
theorem still_of_inStep {s : Stage ℝ} (placed : s.Placed) (faced : s.Faced)
    (engine : Stage ℝ → ℝ → Passage ℝ) {x : Handle} {a : Actor ℝ} (ha : s.actor? x = some a)
    (free : a.parent = none) :
    ∃ a', (s.stepBy engine Scalar.zero).2.actor? x = some a' ∧
      a'.placement.offset = a.placement.offset ∧
      (a'.placement.rotation : Real.Angle) = a.placement.rotation := by
  have still : Scalar.less (Scalar.zero : ℝ) Scalar.zero = false := by
    show decide ((Scalar.zero : ℝ) < Scalar.zero) = false
    simp
  refine ⟨followBody a, actor?_still engine still ha free, ?_⟩
  rw [followBody]
  split
  · rename_i b _ embodied
    exact ⟨placed x trivial a ha free b embodied,
      turn_of_faces (faced x trivial a ha free b embodied)⟩
  · exact ⟨rfl, rfl⟩

/-- An empty stage without rounding. -/
noncomputable def hall : Stage ℝ := .new ⟨800, 600⟩ ⟨⟨0, 980⟩, true, false, 20, 32, 1.5⟩

/-- Someone with a body is put on another, which makes a quarter turn and lets it go. -/
noncomputable def swivel : List (Op ℝ) :=
  [.spawn (Spawn.new "p"), .spawn { Spawn.new "c" with body := some .usual }, .attach 1 0,
    .setDirection 0 90, .detach 1]

theorem wrapAngle_quarter : wrapAngle (Canvas.rotationToPixels (90 : ℝ)) = -(Real.pi / 2) := by
  show -(90 * (Real.pi / 180)) + Real.pi
    - 2 * Real.pi * ((⌊(-(90 * (Real.pi / 180)) + Real.pi) / (2 * Real.pi)⌋ : ℤ) : ℝ) - Real.pi = _
  have quarter : (-(90 * (Real.pi / 180)) + Real.pi) / (2 * Real.pi) = 1 / 4 := by
    have := Real.pi_ne_zero
    field_simp
    norm_num
  have floor : ⌊(1 / 4 : ℝ)⌋ = 0 := by norm_num
  rw [quarter, floor]
  ring

/-- After the release the actor has made the quarter turn, and its body has not. -/
theorem not_turned_swivel :
    ¬∀ x a b, (hall.perform swivel).actor? x = some a → a.parent = none → a.body = some b →
      b.center = a.placement.offset ∧ (b.rotation : Real.Angle) = a.placement.rotation := by
  intro turned
  obtain ⟨a, b, ha, free, hb, heading, rotation⟩ : ∃ a b, (hall.perform swivel).actor? 1 = some a ∧
      a.parent = none ∧ a.body = some b ∧
      b.heading = Vec.ofAngle (Canvas.rotationToPixels Scalar.zero) ∧
      a.placement.rotation = wrapAngle (Canvas.rotationToPixels 90)
        + (Canvas.rotationToPixels Scalar.zero - Canvas.rotationToPixels Scalar.zero) :=
    ⟨_, _, rfl, rfl, rfl, rfl, rfl⟩
  have level : Canvas.rotationToPixels (Scalar.zero : ℝ) = 0 := by
    show -((((0 : ℤ) : ℝ) / ((1 : ℕ) : ℝ)) * (Real.pi / 180)) = 0
    norm_num
  have body : (b.rotation : Real.Angle) = (0 : ℝ) := by
    rw [Body.rotation, heading, level]
    exact Vec.angle_ofAngle 0
  have actor : a.placement.rotation = -(Real.pi / 2) := by
    rw [rotation, wrapAngle_quarter, level]
    show -(Real.pi / 2) + ((0 : ℝ) - 0) = _
    ring
  have same := (turned 1 a b ha free hb).2
  rw [body, actor] at same
  have cosines := congrArg Real.Angle.cos same
  rw [Real.Angle.cos_coe, Real.Angle.cos_coe, Real.cos_zero, Real.cos_neg, Real.cos_pi_div_two]
    at cosines
  exact one_ne_zero cosines

end Stage

end BlockStage
