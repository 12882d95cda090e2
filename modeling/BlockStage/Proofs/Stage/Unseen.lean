/-
  Unseen: what sensing answers about a stage of which a part cannot be sensed.

  1. **Specification (`Stage.UnseenChange`)** — two stages have the same ids, and each actor is the same on
     both, apart from who is attached to it, or can be sensed on neither and has nobody attached.

  2. **The crux** — placements are composed along parents, and a parent always has someone attached.
     So every actor that can be sensed has the same place, looks and body on both stages
     (`UnseenChange.world?`, `UnseenChange.silhouette`), and what touches is the same.

  3. **The gap** — distances are measured to whoever is meant, whether or not it can be sensed.  They are
     the same as long as those who are meant unseen are meant on both stages and at the same place
     (`reach?`), and may differ otherwise (`not_same_distance_parlor`).

  4. **The result** — `sensing_of_unseenChange`.
-/
import BlockStage.Proofs.Stage.Operation
import BlockStage.Session.Delivery

namespace BlockStage

variable {α : Type}

namespace Stage

variable {s t : Stage α} {h : Handle}

/-! ## Two stages -/

/-- Behind a handle is nobody on both stages, or the same actor, apart from who is attached to it. -/
def Alike (s t : Stage α) (h : Handle) : Prop :=
  (s.actor? h = none ∧ t.actor? h = none) ∨
    ∃ a l, s.actor? h = some a ∧ t.actor? h = some { a with children := l }

/-- What holds of nobody, and of an actor and itself with other children, holds of who is behind the
    handle now and was before. -/
@[elab_as_elim]
theorem Alike.elim {motive : Option (Actor α) → Option (Actor α) → Prop} (k : Alike s t h)
    (nobody : motive none none) (actor : ∀ a l, motive (some { a with children := l }) (some a)) :
    motive (t.actor? h) (s.actor? h) := by
  rcases k with ⟨before, after⟩ | ⟨a, l, before, after⟩
  · rw [before, after]
    exact nobody
  · rw [before, after]
    exact actor a l

/-- What does not depend on the children is the same on both stages. -/
theorem Alike.read {β : Type} (k : Alike s t h) (g : Option (Actor α) → β)
    (hg : ∀ a l, g (some { a with children := l }) = g (some a)) :
    g (t.actor? h) = g (s.actor? h) :=
  k.elim rfl hg

theorem Alike.body? (k : Alike s t h) : t.body? h = s.body? h :=
  k.read (fun o => o.bind Actor.body) fun _ _ => rfl

theorem Alike.outline? (k : Alike s t h) : t.outline? h = s.outline? h := by
  rw [Stage.outline?, Stage.outline?, k.body?]

theorem Alike.isStopped (k : Alike s t h) : t.isStopped h = s.isStopped h := by
  rw [Stage.isStopped, Stage.isStopped]
  exact k.elim rfl fun _ _ => rfl

/-- Behind a handle is nobody who can be sensed, and nobody is attached to it, on either stage. -/
structure Hidden (s t : Stage α) (h : Handle) : Prop where
  before : s.isPerceptible h = false
  after : t.isPerceptible h = false
  lonely : ∀ x, s.parent? x ≠ some h
  lonely' : ∀ x, t.parent? x ≠ some h

/-- The stages differ only in actors that can be sensed on neither. -/
structure UnseenChange (s t : Stage α) : Prop where
  canvas : t.canvas = s.canvas
  physics : t.physics = s.physics
  ids : t.ids = s.ids
  index : t.index = s.index
  actors : ∀ h, Alike s t h ∨ Hidden s t h

/-- Is `other` what a target asks for, from the viewer's side, when both are as they were? -/
theorem Alike.isMeant {viewer : Handle} (kv : Alike s t viewer) (k : Alike s t h) (target : Target) :
    t.isMeant viewer h target = s.isMeant viewer h target := by
  have id : t.id? h = s.id? h := k.read (fun o => o.map Actor.id) fun _ _ => rfl
  have component : t.component? h = s.component? h :=
    k.read (fun o => o.bind Actor.component) fun _ _ => rfl
  have clone : t.isClone h = s.isClone h := by
    rw [isClone, isClone]
    exact k.elim rfl fun _ _ => rfl
  have root : ∀ {x}, Alike s t x → t.root? x = s.root? x := fun kx => by
    rw [root?, root?]
    exact kx.read (Option.map fun a => a.prototype.getD a.id) fun _ _ => rfl
  rw [isMeant.eq_def, isMeant.eq_def s, id, component, clone, root k, root kv]

theorem Alike.passes {viewer : Handle} (kv : Alike s t viewer) (k : Alike s t h)
    (filter : Option Target) : t.passes viewer h filter = s.passes viewer h filter := by
  cases filter with
  | none => rfl
  | some target =>
    show (!target.namesEntities || t.isMeant viewer h target)
      = (!target.namesEntities || s.isMeant viewer h target)
    rw [kv.isMeant k]

namespace UnseenChange

variable (k : UnseenChange s t)
include k

theorem find? : t.find? = s.find? := by
  funext id
  rw [Stage.find?, Stage.find?, k.index]

theorem handles : t.handles = s.handles := by
  rw [Stage.handles, Stage.handles, k.ids, k.find?]

theorem groundLine? : t.groundLine? = s.groundLine? := by
  rw [Stage.groundLine?, Stage.groundLine?, k.physics, k.canvas]

/-- Who can be sensed is the same on both stages. -/
theorem isPerceptible (h : Handle) : t.isPerceptible h = s.isPerceptible h := by
  rcases k.actors h with alike | hidden
  · rw [Stage.isPerceptible, Stage.isPerceptible]
    exact alike.elim rfl fun _ _ => rfl
  · rw [hidden.before, hidden.after]

/-- Whoever can be sensed is as it was. -/
theorem alike_of_perceptible (seen : s.isPerceptible h = true) : Alike s t h := by
  rcases k.actors h with alike | hidden
  · exact alike
  · rw [hidden.before] at seen
    cases seen

/-- Whoever has someone attached is as it was. -/
theorem alike_of_parent {x : Handle} (linked : s.parent? x = some h) : Alike s t h := by
  rcases k.actors h with alike | hidden
  · exact alike
  · exact absurd linked (hidden.lonely x)

/-! ## Places and looks -/

section
variable [Scalar α]

/-- Placements are carried along parents, and those are as they were. -/
theorem carry {x : Handle} (kx : Alike s t x) (links : Nat) (p : Placement α) :
    t.carry links (s.parent? x) p = s.carry links (s.parent? x) p := by
  induction links generalizing x p with
  | zero => rw [Stage.carry, Stage.carry]
  | succ links ih =>
    cases linked : s.parent? x with
    | none => rw [Stage.carry, Stage.carry]
    | some q =>
      have kq := k.alike_of_parent linked
      rw [Stage.carry, Stage.carry]
      rcases id kq with ⟨before, after⟩ | ⟨a, l, before, after⟩
      · rw [before, after]
      · have up : s.parent? q = a.parent := by rw [Stage.parent?, before, Option.bind_some]
        rw [before, after]
        show t.carry links a.parent (a.placement.compose p) = s.carry links a.parent (a.placement.compose p)
        rw [← up]
        exact ih kq _

/-- Whoever is as it was is where it was. -/
theorem world? (kh : Alike s t h) : t.world? h = s.world? h := by
  rw [Stage.world?, Stage.world?]
  rcases id kh with ⟨before, after⟩ | ⟨a, l, before, after⟩
  · rw [before, after]
    rfl
  · have up : s.parent? h = a.parent := by rw [Stage.parent?, before, Option.bind_some]
    rw [before, after, Option.map_some, Option.map_some]
    refine congrArg some ?_
    show t.carry linkLimit a.parent a.placement = s.carry linkLimit a.parent a.placement
    rw [← up]
    exact k.carry kh _ _

theorem drawnBounds? (kh : Alike s t h) : t.drawnBounds? h = s.drawnBounds? h := by
  rw [Stage.drawnBounds?, Stage.drawnBounds?, k.world? kh]
  exact kh.elim rfl fun _ _ => by cases s.world? h <;> rfl

theorem silhouette (kh : Alike s t h) : t.silhouette h = s.silhouette h := by
  rw [Stage.silhouette, Stage.silhouette, k.drawnBounds? kh, kh.outline?]

theorem overlap {viewer : Handle} (kv : Alike s t viewer) (kh : Alike s t h) :
    t.overlap viewer h = s.overlap viewer h := by
  rw [Stage.overlap, Stage.overlap, k.silhouette kv, k.silhouette kh]

theorem isHit (kh : Alike s t h) (p : Vec α) : t.isHit h p = s.isHit h p := by
  rw [Stage.isHit, Stage.isHit, k.world? kh]
  exact kh.elim rfl fun _ _ => by cases s.world? h <;> rfl

theorem onGround (kh : Alike s t h) : t.onGround h = s.onGround h := by
  rw [Stage.onGround, Stage.onGround, kh.body?, k.groundLine?, k.drawnBounds? kh, k.physics]

theorem touchesEdge (kh : Alike s t h) : t.touchesEdge h = s.touchesEdge h := by
  rw [Stage.touchesEdge, Stage.touchesEdge, k.drawnBounds? kh, k.canvas]

/-! ## What sensing answers -/

/-- **Touches**: what cannot be sensed neither touches nor is touched. -/
theorem isTouching {viewer : Handle} (seen : s.isPerceptible viewer = true) (target : Target)
    (pointer : Vec α) : t.isTouching viewer target pointer = s.isTouching viewer target pointer := by
  have kv := k.alike_of_perceptible seen
  have met : ∀ other, (t.isMeant viewer other target && t.isPerceptible other && t.overlap viewer other)
      = (s.isMeant viewer other target && s.isPerceptible other && s.overlap viewer other) := by
    intro other
    rw [k.isPerceptible]
    cases visible : s.isPerceptible other with
    | false => rw [Bool.and_false, Bool.and_false]; rfl
    | true =>
      have ko := k.alike_of_perceptible visible
      rw [kv.isMeant ko, k.overlap kv ko]
  have among : (t.handles.any fun other =>
        t.isMeant viewer other target && t.isPerceptible other && t.overlap viewer other)
      = s.handles.any fun other =>
        s.isMeant viewer other target && s.isPerceptible other && s.overlap viewer other := by
    rw [k.handles, funext met]
  rw [isTouching.eq_def, isTouching.eq_def s, k.isPerceptible, k.touchesEdge kv, k.onGround kv,
    k.isHit kv, among]

theorem allTouching {viewer : Handle} (seen : s.isPerceptible viewer = true)
    (filter : Option Target) : t.allTouching viewer filter = s.allTouching viewer filter := by
  have kv := k.alike_of_perceptible seen
  have met : ∀ other, (other != viewer && t.isPerceptible other && t.passes viewer other filter
        && t.overlap viewer other)
      = (other != viewer && s.isPerceptible other && s.passes viewer other filter
        && s.overlap viewer other) := by
    intro other
    rw [k.isPerceptible]
    cases visible : s.isPerceptible other with
    | false => rw [Bool.and_false]; rfl
    | true =>
      have ko := k.alike_of_perceptible visible
      rw [kv.passes ko, k.overlap kv ko]
  rw [Stage.allTouching, Stage.allTouching, k.isPerceptible, k.handles, funext met]

end

end UnseenChange

/-! ## Distances -/

section
variable [Scalar α]

/-- Where an actor is, if it is what a target asks for. -/
def reach? (s : Stage α) (viewer : Handle) (target : Target) (other : Handle) : Option (Vec α) :=
  if s.isMeant viewer other target then (s.world? other).map Placement.offset else none

/-- The distance to the nearest of some points. -/
def nearest? (origin : Vec α) (points : List (Vec α)) : Option α :=
  match points.map origin.distance with
  | [] => none
  | d :: rest => some (rest.foldl Scalar.minOf d)

/-- Distances to actors depend on nothing but where those are who are meant. -/
theorem distance?_eq_nearest? {target : Target} (names : target.namesEntities = true)
    (viewer : Handle) (pointer : Vec α) :
    s.distance? viewer target pointer = (s.world? viewer).bind fun w =>
      nearest? w.offset (s.handles.filterMap (s.reach? viewer target)) := by
  have points : ∀ (origin : Vec α) (l : List Handle),
      ((l.filter fun other => s.isMeant viewer other target).filterMap fun other =>
        (s.world? other).map fun w => origin.distance w.offset)
      = (l.filterMap (s.reach? viewer target)).map origin.distance := by
    intro origin l
    rw [List.filterMap_filter, List.map_filterMap]
    refine List.filterMap_congr fun other _ => ?_
    rw [reach?]
    split
    · rw [Option.map_map]
      rfl
    · rfl
  rw [distance?.eq_def]
  cases s.world? viewer with
  | none => rfl
  | some w =>
    show _ = nearest? w.offset _
    rw [nearest?, ← points]
    cases target with
    | edge => cases names
    | ground => cases names
    | pointer => cases names
    | _ => rfl

/-- **Distances**: they are the same if those who are meant unseen are meant at the same place. -/
theorem UnseenChange.distance? (k : UnseenChange s t) {viewer : Handle}
    (seen : s.isPerceptible viewer = true) {target : Target}
    (known : target.namesEntities = true → ∀ x, s.isPerceptible x = false →
      t.reach? viewer target x = s.reach? viewer target x) (pointer : Vec α) :
    t.distance? viewer target pointer = s.distance? viewer target pointer := by
  have kv := k.alike_of_perceptible seen
  cases names : target.namesEntities with
  | true =>
    have reached : t.reach? viewer target = s.reach? viewer target := by
      funext x
      cases visible : s.isPerceptible x with
      | false => exact known names x visible
      | true =>
        have kx := k.alike_of_perceptible visible
        rw [reach?, reach?, kv.isMeant kx, k.world? kx]
    rw [distance?_eq_nearest? names, distance?_eq_nearest? names, k.world? kv, k.handles, reached]
  | false =>
    have edges : ∀ p, t.edgeDistance p = s.edgeDistance p := fun p => by
      rw [edgeDistance, edgeDistance, k.canvas]
    rw [Stage.distance?.eq_def, Stage.distance?.eq_def s, k.world? kv, k.groundLine?,
      kv.outline?, k.drawnBounds? kv, funext edges]
    cases target with
    | entity id => cases names
    | component c => cases names
    | myClones => cases names
    | _ => rfl

end

/-! ## Pairs -/

/-- Whoever can be sensed listens on both stages or on neither. -/
theorem UnseenChange.listens {s t : Stage Float32} (k : UnseenChange s t) (u : Session) {id : String}
    {x : Handle} (found : s.find? id = some x) (seen : s.isPerceptible x = true) (kind : EventKind) :
    ({ u with stage := t } : Session).listens kind id
      = ({ u with stage := s } : Session).listens kind id := by
  have live : ({ u with stage := t } : Session).isLive id
      = ({ u with stage := s } : Session).isLive id := by
    have before : ({ u with stage := s } : Session).handle? id = some x := found
    have after : ({ u with stage := t } : Session).handle? id = some x := by
      rw [← before]
      exact congrFun k.find? id
    rw [Session.isLive, Session.isLive, before, after]
    exact congrArg (!·) (k.alike_of_perceptible seen).isStopped
  rw [Session.listens, Session.listens, live]

/-- **Pairs**: those who touch and listen are the same. -/
theorem UnseenChange.overlappingPairs {s t : Stage Float32} (k : UnseenChange s t) (u : Session) :
    Play.overlappingPairs { u with stage := t }
        (({ u with stage := t } : Session).listeners .touching)
      = Play.overlappingPairs { u with stage := s }
        (({ u with stage := s } : Session).listeners .touching) := by
  have present : (t.ids.filterMap fun id => (t.find? id).map fun h => (id, h))
      = s.ids.filterMap fun id => (s.find? id).map fun h => (id, h) := by
    rw [k.ids, k.find?]
  have seen : (fun e : String × Handle => t.isPerceptible e.2) = fun e => s.isPerceptible e.2 :=
    funext fun e => k.isPerceptible e.2
  refine congrArg Play.pairsAmong ?_
  show ((t.ids.filterMap fun id => (t.find? id).map fun h => (id, h)).filter
      fun e => t.isPerceptible e.2).map _ = _
  rw [present, seen]
  refine List.map_congr_left fun e he => ?_
  obtain ⟨there, visible⟩ := List.mem_filter.mp he
  obtain ⟨id, -, bears⟩ := List.mem_filterMap.mp there
  obtain ⟨x, found, rfl⟩ := Option.map_eq_some_iff.mp bears
  have silhouettes := k.silhouette (k.alike_of_perceptible visible)
  have listening : (({ u with stage := t } : Session).listeners .touching).contains id
      = (({ u with stage := s } : Session).listeners .touching).contains id := by
    have ids : ({ u with stage := t } : Session).stage.ids = s.ids := k.ids
    rw [Bool.eq_iff_iff, List.contains_iff_mem, List.contains_iff_mem, Session.listeners,
      Session.listeners, List.mem_filter, List.mem_filter, ids, k.listens u found visible]
  show (⟨id, x, _, t.silhouette x⟩ : Play.Candidate) = ⟨id, x, _, s.silhouette x⟩
  rw [silhouettes, listening]

/-! ## The result -/

/-- **What cannot be sensed is not sensed**, but for distances: touches, the actors that are touched
    and the pairs that touch are the same on two stages that differ only in actors that can be
    sensed on neither; and distances are, as long as those of them who are meant are meant on both
    stages and at the same place. -/
theorem sensing_of_unseenChange {s t : Stage Float32} (k : UnseenChange s t) {viewer : Handle}
    (seen : s.isPerceptible viewer = true) (target : Target) (pointer : Vec Float32) :
    t.isTouching viewer target pointer = s.isTouching viewer target pointer ∧
      (∀ filter, t.allTouching viewer filter = s.allTouching viewer filter) ∧
      (∀ u : Session, Play.overlappingPairs { u with stage := t }
          (({ u with stage := t } : Session).listeners .touching)
        = Play.overlappingPairs { u with stage := s }
          (({ u with stage := s } : Session).listeners .touching)) ∧
      ((target.namesEntities = true → ∀ x, s.isPerceptible x = false →
          t.reach? viewer target x = s.reach? viewer target x) →
        t.distance? viewer target pointer = s.distance? viewer target pointer) :=
  ⟨k.isTouching seen target pointer, k.allTouching seen, k.overlappingPairs,
    fun known => k.distance? seen known pointer⟩

/-- Someone who can be seen is alone on a stage. -/
def lobby : Stage Float32 := (Stage.new ⟨480, 360⟩ .usual).perform [.spawn (Spawn.new "v")]

/-- Someone hidden, at a point of user space. -/
def lurker (p : Vec Float32) : Spawn Float32 := { Spawn.new "h" with position := p, visible := false }

/-- Beside someone who can be seen is someone hidden. -/
def parlor (p : Vec Float32) : Stage Float32 := lobby.perform [.spawn (lurker p)]

theorem parlor_eq (p : Vec Float32) : parlor p =
    { lobby with
      actors := lobby.actors.insert 1 (lobby.actorOf (lurker p))
      nextHandle := 2
      index := lobby.index.insert "h" 1
      ids := lobby.ids ++ ["h"] } := by
  have named : isBlankText "h" = false := by decide +kernel
  have free : lobby.index.contains "h" = false := by decide +kernel
  have spawned := spawn_of_bare (s := lobby) (d := lurker p) named free rfl
  show Op.apply lobby (.spawn (lurker p)) = _
  rw [Op.apply, spawned]
  rfl

theorem actor?_parlor (p : Vec Float32) (x : Handle) : (parlor p).actor? x
    = if x = 1 then some (lobby.actorOf (lurker p)) else lobby.actor? x := by
  rw [parlor_eq, actor?, Table.get?_insert]
  exact if_congr beq_iff_eq rfl rfl

/-- Nobody is attached to anyone. -/
theorem parent?_parlor (p : Vec Float32) (x : Handle) : (parlor p).parent? x = none := by
  obtain ⟨a, actors, free⟩ : ∃ a, lobby.actors = ⟨[(0, a)]⟩ ∧ a.parent = none := ⟨_, rfl, rfl⟩
  rw [parent?, actor?_parlor, actor?, actors, Table.get?, List.lookup_cons, List.lookup_nil]
  split
  · rfl
  · cases x == 0 with
    | true => exact free
    | false => rfl

theorem unseenChange_parlor (p q : Vec Float32) : UnseenChange (parlor p) (parlor q) := by
  refine ⟨by rw [parlor_eq, parlor_eq], by rw [parlor_eq, parlor_eq], by rw [parlor_eq, parlor_eq],
    by rw [parlor_eq, parlor_eq], fun x => ?_⟩
  by_cases guest : x = 1
  · have hidden : ∀ p, (parlor p).isPerceptible x = false := by
      intro p
      rw [isPerceptible, actor?_parlor, if_pos guest]
      rfl
    have lonely : ∀ p y, (parlor p).parent? y ≠ some x := by
      intro p y
      rw [parent?_parlor]
      exact fun linked => (by cases linked)
    exact .inr ⟨hidden p, hidden q, lonely p, lonely q⟩
  · rw [Alike, actor?_parlor, actor?_parlor, if_neg guest, if_neg guest]
    refine .inl ?_
    cases lobby.actor? x with
    | none => exact .inl ⟨rfl, rfl⟩
    | some a => exact .inr ⟨a, a.children, rfl, rfl⟩

/-- The answers about someone who can be seen, when someone hidden is elsewhere. -/
theorem sensing_parlor : UnseenChange (parlor ⟨30, 40⟩) (parlor ⟨300, 400⟩) ∧
    (parlor ⟨30, 40⟩).isPerceptible 0 = true ∧
    (parlor ⟨300, 400⟩).isTouching 0 (.entity "h") Vec.zero
      = (parlor ⟨30, 40⟩).isTouching 0 (.entity "h") Vec.zero := by
  have seen : (parlor ⟨30, 40⟩).isPerceptible 0 = true := by decide +kernel
  have same := sensing_of_unseenChange (unseenChange_parlor ⟨30, 40⟩ ⟨300, 400⟩) seen
    (.entity "h") Vec.zero
  exact ⟨unseenChange_parlor _ _, seen, same.1⟩

/-- The hidden one can be measured: from 50 it has gone to 500. -/
theorem not_same_distance_parlor : UnseenChange (parlor ⟨30, 40⟩) (parlor ⟨300, 400⟩) ∧
    (parlor ⟨30, 40⟩).isPerceptible 0 = true ∧
    (parlor ⟨300, 400⟩).distance? 0 (.entity "h") Vec.zero
      ≠ (parlor ⟨30, 40⟩).distance? 0 (.entity "h") Vec.zero := by
  refine ⟨unseenChange_parlor _ _, by decide +kernel, ?_⟩
  have near : (parlor ⟨30, 40⟩).distance? 0 (.entity "h") Vec.zero = some 50 := by decide +kernel
  have far : (parlor ⟨300, 400⟩).distance? 0 (.entity "h") Vec.zero = some 500 := by
    decide +kernel
  rw [near, far]
  decide +kernel

end Stage

end BlockStage
