/-
  Touches: what is delivered is what is sensed.

  1. **The pairs** — the touching phase goes through the overlapping pairs of those that can be
     sensed, each pair once, and of each pair a side listens (`Play.mem_overlappingPairs`).  Which
     side of a pair comes first depends on the order of registration; that it does not matter is
     that silhouettes overlap mutually, whichever of their boxes decide (`Silhouette.overlaps_comm`).

  2. **The sensors** — asking whether an actor touches a target is asking for another one that is
     meant, can be sensed and overlaps it (`Stage.isTouching_iff`), and so is listing those that it
     touches (`Stage.mem_allTouching`).  Whoever has a behavior for touches and takes part is a
     listener, so the pairs and the sensors agree (`Session.touches_iff`).

  3. **At most once (`Chronicle.Fires`)** — what has been triggered is noted down, whether or not it
     has been launched, and nothing that is noted is triggered again.  Scripts that run meanwhile
     launch start scripts of clones only, so whatever the phase launches for a touch is noted before
     (`touched_launch`).
-/
import BlockStage.Proofs.Chronicle.Catalogue

namespace BlockStage

open Session (Trace)

/-! ## Overlaps are mutual -/

section
variable {α : Type} [Scalar α]

theorem Box.overlaps_comm (a b : Box α) : a.overlaps b = b.overlaps a := by
  rw [Box.overlaps, Box.overlaps, Bool.and_comm (Scalar.lessEq a.min.x b.max.x),
    Bool.and_right_comm]

namespace Silhouette

theorem meet_comm (a b : Option (Box α)) : meet a b = meet b a := by
  cases a with
  | none => cases b <;> rfl
  | some a =>
    cases b with
    | none => rfl
    | some b => exact a.overlaps_comm b

/-- Whether the bodies decide or what is drawn, both sides decide alike. -/
theorem overlaps_comm (a b : Silhouette α) : a.overlaps b = b.overlaps a := by
  rw [overlaps, overlaps, Bool.and_comm, meet_comm a.body, meet_comm a.drawn]

end Silhouette

/-! ## Sensors -/

namespace Stage

variable {s : Stage α} {h other : Handle} {target : Target}

/-- One can be sensed and overlaps another one that is what a target asks for. -/
structure Senses (s : Stage α) (h : Handle) (target : Target) (other : Handle) : Prop where
  self : s.isPerceptible h = true
  meant : s.isMeant h other target = true
  there : s.isPerceptible other = true
  overlap : s.overlap h other = true

omit [Scalar α] in
theorem ne_of_isMeant (meant : s.isMeant h other target = true) : h ≠ other := by
  intro same
  rw [isMeant.eq_def, if_pos same] at meant
  cases meant

/-- An actor touches a target if it senses someone. -/
theorem isTouching_iff (names : target.namesEntities = true) (pointer : Vec α) :
    s.isTouching h target pointer = true ↔ ∃ other ∈ s.handles, s.Senses h target other := by
  have asked : s.isTouching h target pointer = (s.isPerceptible h && s.handles.any fun other =>
      s.isMeant h other target && s.isPerceptible other && s.overlap h other) := by
    rw [isTouching.eq_def]
    cases s.isPerceptible h with
    | false => rfl
    | true => cases target <;> first | rfl | cases names
  rw [asked, Bool.and_eq_true, List.any_eq_true]
  constructor
  · rintro ⟨self, other, there, found⟩
    simp only [Bool.and_eq_true] at found
    exact ⟨other, there, self, found.1.1, found.1.2, found.2⟩
  · rintro ⟨other, there, senses⟩
    exact ⟨senses.self, other, there, by rw [senses.meant, senses.there, senses.overlap]; rfl⟩

/-- Those that an actor touches are those that it senses. -/
theorem mem_allTouching (names : target.namesEntities = true) :
    other ∈ s.allTouching h (some target) ↔ other ∈ s.handles ∧ s.Senses h target other := by
  rw [allTouching]
  cases self : s.isPerceptible h with
  | false =>
    refine ⟨fun listed => (List.not_mem_nil listed).elim, fun found => ?_⟩
    rw [found.2.self] at self
    cases self
  | true =>
    have passes : s.passes h other (some target) = s.isMeant h other target := by
      rw [passes, names]
      rfl
    rw [Bool.not_true, if_neg Bool.false_ne_true, List.mem_filter, passes]
    simp only [Bool.and_eq_true, bne_iff_ne]
    constructor
    · rintro ⟨there, ⟨⟨-, perceptible⟩, meant⟩, overlap⟩
      exact ⟨there, self, meant, perceptible, overlap⟩
    · rintro ⟨there, senses⟩
      exact ⟨there, ⟨⟨(ne_of_isMeant senses.meant).symm, senses.there⟩, senses.meant⟩,
        senses.overlap⟩

/-- An actor touches a target if there is anyone to be listed. -/
theorem isTouching_iff_allTouching (names : target.namesEntities = true) (pointer : Vec α) :
    s.isTouching h target pointer = true ↔ s.allTouching h (some target) ≠ [] := by
  rw [isTouching_iff names]
  constructor
  · rintro ⟨other, found⟩
    exact List.ne_nil_of_mem ((mem_allTouching names).mpr found)
  · intro some
    obtain ⟨other, listed⟩ := List.exists_mem_of_ne_nil _ some
    exact ⟨other, (mem_allTouching names).mp listed⟩

end Stage

end

/-! ## Pairs -/

namespace Play

/-- A pair of candidates, the first of them earlier in the list, that overlap, and one listens. -/
theorem mem_pairsAmong {l : List Candidate} {pair : (String × Handle) × (String × Handle)} :
    pair ∈ pairsAmong l ↔ ∃ a b, [a, b].Sublist l ∧ (a.listening || b.listening) = true ∧
      a.silhouette.overlaps b.silhouette = true ∧ pair = ((a.id, a.handle), (b.id, b.handle)) := by
  induction l with
  | nil =>
    refine ⟨fun listed => (List.not_mem_nil listed).elim, ?_⟩
    rintro ⟨a, b, sub, -⟩
    cases sub
  | cons c rest ih =>
    rw [pairsAmong, List.mem_append, ih]
    constructor
    · rintro (first | ⟨a, b, later, found⟩)
      · obtain ⟨b, hb, rfl⟩ := List.mem_map.mp first
        obtain ⟨there, found⟩ := List.mem_filter.mp hb
        obtain ⟨listening, overlap⟩ := Bool.and_eq_true_iff.mp found
        exact ⟨c, b, (List.singleton_sublist.mpr there).cons_cons c, listening, overlap, rfl⟩
      · exact ⟨a, b, later.cons c, found⟩
    · rintro ⟨a, b, sub, listening, overlap, rfl⟩
      cases sub with
      | cons _ later => exact .inr ⟨a, b, later, listening, overlap, rfl⟩
      | cons_cons _ later =>
        refine .inl (List.mem_map.mpr ⟨b, List.mem_filter.mpr ⟨?_, ?_⟩, rfl⟩)
        · exact List.singleton_sublist.mp later
        · rw [listening, overlap]
          rfl

/-- Of two members of a list one comes first. -/
theorem sublist_or_sublist {α : Type} {l : List α} {a b : α} (ha : a ∈ l) (hb : b ∈ l)
    (other : a ≠ b) : [a, b].Sublist l ∨ [b, a].Sublist l := by
  induction l with
  | nil => exact (List.not_mem_nil ha).elim
  | cons c rest ih =>
    rcases List.mem_cons.mp ha with rfl | restA
    · have restB := (List.mem_cons.mp hb).resolve_left other.symm
      exact .inl ((List.singleton_sublist.mpr restB).cons_cons a)
    · rcases List.mem_cons.mp hb with rfl | restB
      · exact .inr ((List.singleton_sublist.mpr restA).cons_cons b)
      · exact (ih restA restB).imp (.cons c) (.cons c)

variable {s : Session} {listeners : List String} {a b : String × Handle}

/-- An entity on stage that can be sensed. -/
structure Present (s : Session) (e : String × Handle) : Prop where
  id : e.1 ∈ s.stage.ids
  handle : s.handle? e.1 = some e.2
  perceptible : s.stage.isPerceptible e.2 = true

/-- The entities that can be sensed, in the order of registration. -/
theorem mem_present {e : String × Handle} :
    (e ∈ (s.stage.ids.filterMap fun id => (s.handle? id).map fun h => (id, h)).filter
      fun e => s.stage.isPerceptible e.2) ↔ Present s e := by
  rw [List.mem_filter, List.mem_filterMap]
  constructor
  · rintro ⟨⟨id, listed, found⟩, perceptible⟩
    obtain ⟨h, handle, rfl⟩ := Option.map_eq_some_iff.mp found
    exact ⟨listed, handle, perceptible⟩
  · rintro ⟨listed, handle, perceptible⟩
    exact ⟨⟨e.1, listed, by rw [handle]; rfl⟩, perceptible⟩

/-- Both sides of a pair are there, overlap, and one of them listens. -/
theorem of_mem_overlappingPairs (found : (a, b) ∈ overlappingPairs s listeners) :
    Present s a ∧ Present s b ∧ s.stage.overlap a.2 b.2 = true ∧
      (a.1 ∈ listeners ∨ b.1 ∈ listeners) := by
  obtain ⟨c, d, sub, listening, overlap, same⟩ := mem_pairsAmong.mp found
  obtain ⟨x, hx, rfl⟩ := List.mem_map.mp (sub.subset List.mem_cons_self)
  obtain ⟨y, hy, rfl⟩ := List.mem_map.mp (sub.subset (List.mem_cons_of_mem _ List.mem_cons_self))
  obtain ⟨rfl, rfl⟩ := Prod.mk.inj same
  rw [Bool.or_eq_true, List.contains_iff_mem, List.contains_iff_mem] at listening
  exact ⟨mem_present.mp hx, mem_present.mp hy, overlap, listening⟩

/-- **The overlapping pairs**: two different entities are a pair, in one order or the other, exactly
    if both can be sensed, they overlap, and one of them listens. -/
theorem mem_overlappingPairs (other : a ≠ b) :
    (a, b) ∈ overlappingPairs s listeners ∨ (b, a) ∈ overlappingPairs s listeners ↔
      Present s a ∧ Present s b ∧ s.stage.overlap a.2 b.2 = true ∧
        (a.1 ∈ listeners ∨ b.1 ∈ listeners) := by
  constructor
  · rintro (found | found)
    · exact of_mem_overlappingPairs found
    · obtain ⟨hb, ha, overlap, listening⟩ := of_mem_overlappingPairs found
      exact ⟨ha, hb, (Silhouette.overlaps_comm _ _).trans overlap, listening.symm⟩
  · rintro ⟨ha, hb, overlap, listening⟩
    have listens : (listeners.contains a.1 || listeners.contains b.1) = true := by
      rw [Bool.or_eq_true, List.contains_iff_mem, List.contains_iff_mem]
      exact listening
    -- in the list of candidates one of the two comes first
    refine (sublist_or_sublist (mem_present.mpr ha) (mem_present.mpr hb) other).imp
      (fun sub => ?_) fun sub => ?_
    · exact mem_pairsAmong.mpr ⟨_, _, sub.map _, listens, overlap, rfl⟩
    · refine mem_pairsAmong.mpr ⟨_, _, sub.map _, ?_, ?_, rfl⟩
      · exact (Bool.or_comm _ _).trans listens
      · exact (Silhouette.overlaps_comm _ _).trans overlap

end Play

namespace Session

variable {s : Session}

/-- The pairs that are delivered when the touching phase begins. -/
def touchingPairs (s : Session) : List ((String × Handle) × (String × Handle)) :=
  Play.overlappingPairs s (s.listeners .touching)

/-- Is there a pair of these two, in whichever order? -/
def Touches (s : Session) (a b : String × Handle) : Prop :=
  (a, b) ∈ s.touchingPairs ∨ (b, a) ∈ s.touchingPairs

/-- As long as someone listens, these are the pairs that the phase delivers first. -/
theorem deliverTouches_eq (listening : s.listeners .touching ≠ []) :
    Play.deliverTouches s =
      (do
        match ← Play.deliverPairs s.touchingPairs [] with
        | none => return ()
        | some fired =>
          Play.deliverWorlds
            ((s.listeners .touching).filterMap fun id => (s.handle? id).map fun h => (id, h)) fired
          Play.change fun s => { s with touchingBefore := s.touching } : Play Unit)
        { s with touching := [] } := by
  have some : (s.listeners .touching).isEmpty = false := by
    rw [List.isEmpty_eq_false_iff]
    exact listening
  show (if (s.listeners .touching).isEmpty then _ else _ : Play Unit) { s with touching := [] } = _
  rw [some]
  rfl

/-- **Pairs and sensors agree**: there is a pair of a listener with someone who is meant exactly if
    the listener touches the target. -/
theorem touches_iff {id : String} {h : Handle} (there : s.handle? id = some h)
    (listening : id ∈ s.listeners .touching) {target : Target}
    (names : target.namesEntities = true) (pointer : Vec Float32) :
    (∃ other, s.Touches (id, h) other ∧ s.stage.isMeant h other.2 target = true) ↔
      s.stage.isTouching h target pointer = true := by
  have apart : ∀ {other : String × Handle}, s.stage.isMeant h other.2 target = true →
      (id, h) ≠ other := fun meant same => Stage.ne_of_isMeant meant (congrArg Prod.snd same)
  rw [Stage.isTouching_iff names]
  constructor
  · rintro ⟨other, pair, meant⟩
    obtain ⟨self, present, overlap, -⟩ := (Play.mem_overlappingPairs (apart meant)).mp pair
    refine ⟨other.2, List.mem_filterMap.mpr ⟨other.1, present.id, present.handle⟩, ?_⟩
    exact ⟨self.perceptible, meant, present.perceptible, overlap⟩
  · rintro ⟨x, hx, senses⟩
    obtain ⟨j, hj, found⟩ := List.mem_filterMap.mp hx
    refine ⟨(j, x), (Play.mem_overlappingPairs (apart senses.meant)).mpr ?_, senses.meant⟩
    have self : Play.Present s (id, h) := ⟨List.mem_of_mem_filter listening, there, senses.self⟩
    exact ⟨self, ⟨hj, found, senses.there⟩, senses.overlap, .inl listening⟩

end Session

/-! ## At most once -/

/-- The touching behavior that is launched, by its entity and its identity. -/
def Moment.touched? : Moment → Option (String × Nat)
  | ⟨.launch id b, _⟩ =>
    match b.trigger with
    | .touching _ => some (id, b.id)
    | _ => none
  | _ => none

/-- Scripts launch nothing for a touch. -/
theorem Moment.untouched {l : List Moment} (h : ∀ k ∈ l, k.occasion.Scripted) :
    l.filterMap Moment.touched? = [] := by
  refine List.filterMap_eq_nil_iff.mpr fun k hk => ?_
  obtain ⟨o, s⟩ := k
  have scripted := h _ hk
  cases o with
  | launch id b =>
    have starts : Play.startsClone b.trigger = true := scripted
    rw [Moment.touched?]
    split
    · rename_i waits
      rw [waits] at starts
      cases starts
    · rfl
  | _ => rfl

namespace Chronicle

variable {α β : Type}

/-- The touching behaviors that are launched in a step, in order, also if it breaks off. -/
def touched (c : Chronicle α) (s : Session) : List (String × Nat) :=
  (c s).2.filterMap Moment.touched?

section
variable {c : Chronicle α} {f : α → Chronicle β} {s t : Session}

theorem touched_bind_of_ok {a : α} (h : (c s).1 = .ok a t) :
    touched (c >>= f) s = touched c s ++ touched (f a) t := by
  rw [touched, bind_of_ok h, List.filterMap_append]
  rfl

theorem touched_bind_of_error {e : Fault} (h : (c s).1 = .error e t) :
    touched (c >>= f) s = touched c s := by
  rw [touched, bind_of_error h]
  rfl

theorem untouched_bind (hc : touched c s = []) (hf : ∀ a t, touched (f a) t = []) :
    touched (c >>= f) s = [] := by
  cases hr : (c s).1 with
  | ok a t => rw [touched_bind_of_ok hr, hc, hf, List.append_nil]
  | error e t => rw [touched_bind_of_error hr, hc]

end

/-- A launch for a touch launches the behavior itself for a touch, if anything. -/
theorem touched_launch {id : String} {b : Behavior} {target : Target}
    (hb : b.trigger = .touching target) (s : Session) :
    touched (launch id b) s = [] ∨ touched (launch id b) s = [(id, b.id)] := by
  rw [touched, launch, launchWith, get_bind]
  split
  · exact .inl rfl
  · have itself : Moment.touched? ⟨.launch id b, s⟩ = some (id, b.id) := by
      rw [Moment.touched?, hb]
    -- after the launch has been seen there is only the script to be seen
    have scripted : ∀ o : Occasion, o.Scripted → o.Scripted := fun _ h => h
    have slices : ∀ t, touched (slice makeClone (Task.new id b)) t = [] := fun t =>
      Moment.untouched ((told_slice scripted (told_makeClone scripted) _).trace t trivial).kind
    refine .inr ((touched_bind_of_ok rfl).trans ?_)
    rw [untouched_bind (slices _) fun left t => by cases left <;> rfl, List.append_nil]
    exact List.filterMap_cons_some itself

/-- Nothing noted is launched, nothing is launched twice, and what is launched is noted in what the
    answer says is noted afterwards. -/
structure Fires (fired : Play.Fired) (c : Chronicle α) (noted : α → Play.Fired → Prop) : Prop where
  once : ∀ s, (fired ++ touched c s).Nodup
  kept : ∀ s a t, (c s).1 = .ok a t → ∃ later, noted a later ∧ later.Nodup ∧
    (fired ++ touched c s).Sublist later

namespace Fires

variable {fired : Play.Fired} {c : Chronicle α} {f : α → Chronicle β}
  {P : α → Play.Fired → Prop} {Q : β → Play.Fired → Prop}

theorem bind (hc : Fires fired c P)
    (hf : ∀ a later, P a later → later.Nodup → Fires later (f a) Q) :
    Fires fired (c >>= f) Q where
  once s := by
    cases hr : (c s).1 with
    | ok a t =>
      obtain ⟨later, note, nodup, kept⟩ := hc.kept s a t hr
      rw [touched_bind_of_ok hr, ← List.append_assoc]
      exact ((hf a later note nodup).once t).sublist (kept.append_right _)
    | error e t =>
      rw [touched_bind_of_error hr]
      exact hc.once s
  kept s b u hb := by
    cases hr : (c s).1 with
    | ok a t =>
      obtain ⟨later, note, nodup, kept⟩ := hc.kept s a t hr
      rw [bind_of_ok hr] at hb
      obtain ⟨final, note', nodup', kept'⟩ := (hf a later note nodup).kept t b u hb
      refine ⟨final, note', nodup', ?_⟩
      rw [touched_bind_of_ok hr, ← List.append_assoc]
      exact (kept.append_right _).trans kept'
    | error e t =>
      rw [bind_of_error hr] at hb
      cases hb

/-- A step of which nothing is seen. -/
theorem silent {p : Play α} (nodup : fired.Nodup) (h : ∀ s a t, p s = .ok a t → P a fired) :
    Fires fired (liftM p) P := by
  have unseen : ∀ s, fired ++ touched (liftM p : Chronicle α) s = fired := fun s =>
    List.append_nil fired
  refine ⟨fun s => ?_, fun s a t ha => ⟨fired, h s a t ha, nodup, ?_⟩⟩
  · rw [unseen]
    exact nodup
  · rw [unseen]

theorem pure {a : α} (nodup : fired.Nodup) (h : P a fired) :
    Fires fired (Pure.pure a) P :=
  silent (p := Pure.pure a) nodup fun _ _ _ hb => (EStateM.Result.ok.inj hb).1 ▸ h

theorem look {f : Session → Chronicle α} (h : ∀ s, Fires fired (f s) P) :
    Fires fired (get >>= f) P where
  once s := (h s).once s
  kept s := (h s).kept s

theorem ask {q : Session → β} {f : β → Chronicle α} (h : ∀ b, Fires fired (f b) P) :
    Fires fired ((liftM (Play.ask q) : Chronicle β) >>= f) P where
  once s := (h (q s)).once s
  kept s := (h (q s)).kept s

theorem ite (q : Prop) [Decidable q] {d : Chronicle α} (h : q → Fires fired c P)
    (h' : ¬q → Fires fired d P) : Fires fired (if q then c else d) P := by
  split
  · exact h ‹_›
  · exact h' ‹_›

end Fires

variable {fired : Play.Fired}

/-- A launch for a touch, which is noted whether or not it takes place. -/
theorem fires_launch {id : String} {b : Behavior} {target : Target}
    (hb : b.trigger = .touching target) (nodup : fired.Nodup) (new : (id, b.id) ∉ fired) :
    Fires fired (launch id b) fun _ later => later = fired ++ [(id, b.id)] := by
  have noted : (fired ++ [(id, b.id)]).Nodup := by
    refine List.nodup_append_comm.mp (List.nodup_cons.mpr ⟨new, nodup⟩)
  have kept : ∀ s, (fired ++ touched (launch id b) s).Sublist (fired ++ [(id, b.id)]) := by
    intro s
    rcases touched_launch hb s with none | itself
    · rw [none]
      exact (List.nil_sublist _).append_left fired
    · rw [itself]
  exact ⟨fun s => noted.sublist (kept s), fun s _ _ _ => ⟨_, rfl, noted, kept s⟩⟩

/-- A behavior is triggered unless it is noted, and is noted afterwards. -/
theorem fires_fireOnce {id : String} {b : Behavior} {target : Target}
    (hb : b.trigger = .touching target) (nodup : fired.Nodup) :
    Fires fired (fireOnce id b fired) Eq := by
  refine .ite _ (fun _ => .pure nodup rfl) fun unseen => ?_
  have new : (id, b.id) ∉ fired := fun seen => unseen (List.contains_iff_mem.mpr seen)
  refine Fires.bind (P := fun _ later => later = fired ++ [(id, b.id)]) ?_ ?_
  · exact (fires_launch hb nodup new).bind fun _ _ same nodup => .pure nodup same
  · rintro - _ rfl nodup
    exact .pure nodup rfl

theorem fires_deliverSide (id : String) (viewer other : Handle) (l : List Behavior)
    (nodup : fired.Nodup) : Fires fired (deliverSide id viewer other l fired) Eq := by
  induction l generalizing fired with
  | nil => exact .pure nodup rfl
  | cons b rest ih =>
    refine .look fun s => .ite _ (fun wanted => ?_) fun _ => Fires.bind (.pure nodup rfl) ?_
    · obtain ⟨target, touching⟩ := touching_of_test wanted
      refine (fires_fireOnce touching nodup).bind ?_
      rintro later _ rfl nodup
      exact ih nodup
    · rintro later _ rfl nodup
      exact ih nodup

theorem fires_deliverPairs (l : List ((String × Handle) × (String × Handle)))
    (nodup : fired.Nodup) :
    Fires fired (deliverPairs l fired) fun answer later => ∀ noted, answer = some noted →
      noted = later := by
  induction l generalizing fired with
  | nil => exact .pure nodup fun _ h => (Option.some.inj h).symm
  | cons pair rest ih =>
    obtain ⟨a, b⟩ := pair
    refine .look fun s => .ite _ (fun _ => .pure nodup fun _ h => (by cases h)) fun _ => ?_
    refine .ite _ (fun _ => ih nodup) fun _ => ?_
    refine Fires.bind (P := fun _ => (fired = ·)) (.silent nodup fun _ _ _ _ => rfl) ?_
    rintro - _ rfl nodup
    refine .ask fun ofA => (fires_deliverSide _ _ _ _ nodup).bind ?_
    rintro later _ rfl nodup
    refine .ask fun ofB => (fires_deliverSide _ _ _ _ nodup).bind ?_
    rintro later _ rfl nodup
    exact ih nodup

theorem fires_deliverWorld (id : String) (h : Handle) (l : List Behavior)
    (nodup : fired.Nodup) : Fires fired (deliverWorld id h l fired) Eq := by
  induction l generalizing fired with
  | nil => exact .pure nodup rfl
  | cons b rest ih =>
    refine .look fun s => .ite _ (fun _ => .pure nodup rfl) fun _ => ?_
    refine .ite _ (fun touches => ?_) fun _ => Fires.bind (.pure nodup rfl) ?_
    · obtain ⟨target, touching⟩ := touching_of_test touches
      refine (fires_fireOnce touching nodup).bind ?_
      rintro later _ rfl nodup
      exact ih nodup
    · rintro later _ rfl nodup
      exact ih nodup

theorem fires_deliverWorlds (l : List (String × Handle)) (nodup : fired.Nodup) :
    Fires fired (deliverWorlds l fired) fun _ _ => True := by
  induction l generalizing fired with
  | nil => exact .pure nodup trivial
  | cons e rest ih =>
    refine .ask fun behaviors => (fires_deliverWorld _ _ _ nodup).bind ?_
    rintro later _ rfl nodup
    exact ih nodup

/-- **In the touching phase no behavior is launched twice for touches.** -/
theorem fires_deliverTouches : Fires [] deliverTouches fun _ _ => True := by
  have change : ∀ {fired : Play.Fired} (f : Session → Session), fired.Nodup →
      Fires fired (liftM (Play.change f)) fun _ _ => True :=
    fun f nodup => .silent nodup fun _ _ _ _ => trivial
  refine Fires.bind (P := fun _ => ([] = ·)) (.silent List.nodup_nil fun _ _ _ _ => rfl) ?_
  rintro - _ rfl nodup
  refine .look fun s => .ite _ (fun _ => change _ nodup) fun _ => ?_
  refine (fires_deliverPairs _ nodup).bind fun answer later same nodup => ?_
  cases answer with
  | none => exact .pure nodup trivial
  | some noted =>
    obtain rfl := same noted rfl
    exact (fires_deliverWorlds _ nodup).bind fun _ _ _ nodup => change _ nodup

end Chronicle

/-! ## The beginning of the touching phase -/

/-- What an update does before touches are delivered; answers the messages that it has taken. -/
def Play.untilTouches (dt : Float32) : Play (List String) := do
  let dt := Single.max dt 0
  let inbox ← takeInbox
  tick dt
  change fun s => s.stepPhysics dt
  countPhase "physics"
  advanceStart
  resumeAll
  countPhase "tasks"
  runLoops
  countPhase "forever"
  return inbox

/-- An update goes on from there with the touches. -/
theorem Play.updateBy_eq (dt : Float32) :
    Play.updateBy dt =
      (do
        if ← ask Session.running then
          let inbox ← untilTouches dt
          if ← ask Session.running then deliverTouches
          countPhase "touching"
          if ← ask Session.running then deliverMessages inbox
          countPhase "messages") := by
  simp only [updateBy, untilTouches, bind_assoc, pure_bind]

/-- What an update does before touches are delivered, watched. -/
def Chronicle.untilTouches (dt : Float32) : Chronicle (List String) := do
  let dt := Single.max dt 0
  let inbox ← seen .update Play.takeInbox
  Play.tick dt
  Play.change fun s => s.stepPhysics dt
  Play.countPhase "physics"
  advanceStart
  resumeAll
  Play.countPhase "tasks"
  runLoops
  Play.countPhase "forever"
  return inbox

open Chronicle in
theorem Chronicle.tells_untilTouches (dt : Float32) :
    Tells (fun _ => True) (fun s => s.running = true) (Chronicle.untilTouches dt)
      (Play.untilTouches dt) fun _ _ => True := by
  have hA : ∀ o : Occasion, o.Scripted → True := fun _ _ => trivial
  have hS : ∀ o : Occasion, o.Starting → True := fun _ _ => trivial
  refine Tells.bind (m := fun _ _ => True) (.seen trivial ?_ fun _ _ _ _ _ => trivial)
    fun inbox => ?_
  · exact fun s running => ⟨_, .update running, .refl _⟩
  exact (told_tick _).bind fun _ => (Told.skill (Session.skill_stepPhysics _)).bind fun _ =>
    (told_countPhase _).bind fun _ => (told_advanceStart hA hS).bind fun _ =>
    (told_resumeAll hA).bind fun _ => (told_countPhase _).bind fun _ =>
    (told_runLoops hA fun _ _ _ => trivial).bind fun _ => (told_countPhase _).bind fun _ =>
    .pure _

namespace Session

/-- A session at the beginning of the touching phase of an update. -/
inductive AtTouches : Session → Prop where
  | update {s : Session} (dt : Float32) (hs : Visited s) (running : s.running = true)
    (returns : (Play.untilTouches dt).returns s = true)
    (still : ((Play.untilTouches dt).last s).running = true) :
    AtTouches ((Play.untilTouches dt).last s)

theorem AtTouches.catalogued {s : Session} (h : s.AtTouches) : s.Catalogued := by
  cases h with
  | update dt hs running returns still =>
    exact ((Chronicle.tells_untilTouches dt).trace _ running).keep Catalogued.change
      (fun _ => Catalogued.effect) (catalogued_of_visited hs)

theorem AtTouches.registry {s : Session} (h : s.AtTouches) : s.Registry := by
  cases h with
  | update dt hs running returns still =>
    exact stable_registry.trace ((Chronicle.tells_untilTouches dt).trace _ running)
      (registry_of_visited hs)

/-- Whoever has a touching behavior and takes part is a listener. -/
theorem AtTouches.listening {s : Session} (h : s.AtTouches) {id : String} (live : s.isLive id = true)
    (waits : (s.behaviors id fun t => t.kind == .touching) ≠ []) :
    id ∈ s.listeners .touching := by
  obtain ⟨b, hb⟩ := List.exists_mem_of_ne_nil _ waits
  have kind : b.trigger.kind = .touching := eq_of_beq (Chronicle.passes_of_mem_behaviors hb)
  have there : ∃ x, s.stage.find? id = some x := by
    rw [isLive, handle?] at live
    cases found : s.stage.find? id with
    | none =>
      rw [found] at live
      cases live
    | some x => exact ⟨x, rfl⟩
  exact List.mem_filter.mpr ⟨h.registry.stage.mem_ids.mpr there, kind ▸ h.catalogued.listens hb live⟩

/-- What touching behaviors see of touches is what touch sensors see, and no touching behavior is
    launched twice for an entity. -/
structure TouchesAgree (s : Session) : Prop where
  /-- A listener is paired with someone who is meant exactly if it touches the target. -/
  pairs : ∀ id h (target : Target) pointer, s.handle? id = some h → s.isLive id = true →
    (s.behaviors id fun t => t.kind == .touching) ≠ [] → target.namesEntities = true →
    ((∃ other, s.Touches (id, h) other ∧ s.stage.isMeant h other.2 target = true) ↔
      s.stage.isTouching h target pointer = true)
  /-- It touches the target exactly if someone is listed. -/
  listed : ∀ h (target : Target) pointer, target.namesEntities = true →
    (s.stage.isTouching h target pointer = true ↔ s.stage.allTouching h (some target) ≠ [])
  /-- Behaviors for touches of others and of the world are launched once, also if the phase breaks
      off. -/
  once : (Chronicle.touched Chronicle.deliverTouches s).Nodup

/-- **Touching behaviors and touch sensors agree**, in every update. -/
theorem touchesAgree_of_atTouches {s : Session} (h : s.AtTouches) : s.TouchesAgree where
  pairs _ _ _ pointer there live waits names :=
    touches_iff there (h.listening live waits) names pointer
  listed _ _ pointer names := Stage.isTouching_iff_allTouching names pointer
  once := Chronicle.fires_deliverTouches.once s

/-- Two wait for touches of each other, and a third one, which is hidden, for touches of clones of
    its kind and of the edge. -/
def encounter : Session :=
  (fresh .usual (Generator.ofSeed 0) 5).after
    [.register (Spawn.new "a"), .register (Spawn.new "b"),
      .register { Spawn.new "c" with visible := false },
      .addBehaviors "a" ⟨[⟨0, .touching (.entity "b"), []⟩], [], 1⟩,
      .addBehaviors "b" ⟨[⟨1, .touching (.entity "a"), []⟩], [], 2⟩,
      .addBehaviors "c" ⟨[⟨2, .touching .myClones, []⟩, ⟨3, .touching .edge, []⟩], [], 4⟩,
      .script .start]

/-- All three listen, but the hidden one senses nobody and is in no pair. -/
theorem touchesAgree_encounter :
    ((Play.untilTouches 0).last encounter).TouchesAgree ∧
      ((Play.untilTouches 0).last encounter).listeners .touching = ["a", "b", "c"] ∧
      ¬∃ other, ((Play.untilTouches 0).last encounter).Touches ("c", 2) other ∧
        ((Play.untilTouches 0).last encounter).stage.isMeant 2 other.2 (.entity "a") = true := by
  have agree : ((Play.untilTouches 0).last encounter).TouchesAgree :=
    touchesAgree_of_atTouches (.update 0 ((Visited.fresh _ _ _).after _) (by decide +kernel)
      (by decide +kernel) (by decide +kernel))
  refine ⟨agree, by decide +kernel, ?_⟩
  rw [agree.pairs "c" 2 (.entity "a") ⟨0, 0⟩ (by decide +kernel) (by decide +kernel)
    (by decide +kernel) rfl]
  decide +kernel

end Session

end BlockStage
