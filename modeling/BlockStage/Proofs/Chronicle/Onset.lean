/-
  Onsets: when hosts are told that two have begun to touch.

  1. **Specification (`Session.Onsets`)** — in a frame that completes its touching phase hosts should
     be told of each pair that was not among the pairs of the previous frame of the run, once, and of
     no other pair.  `Session.Remembers` goes along with the calls of a host and says which frame was
     the previous one.

  2. **The crux (`Play.after_deliverPairs`)** — the pairs of a frame are different, since entities
     have different ids (`Session.nodup_pairs`), so each of them is noted and told of when its turn
     comes, and what runs in between notes nothing (`Play.Aloof`).

  3. **What fails** — neither stopping nor starting forgets the pairs of the last frame; only clearing
     the stage does.  In the first frame of a run, which has no previous frame, the pairs are compared
     with those of an earlier run, and hosts are not told of those that are found there.
-/
import BlockStage.Proofs.Chronicle.Aloof

namespace BlockStage

/-! ## Pairs in order -/

namespace Event

theorem sortedPair_eq_or (a b : String) : sortedPair a b = (a, b) ∨ sortedPair a b = (b, a) := by
  rw [sortedPair]
  split
  · exact .inl rfl
  · exact .inr rfl

theorem sortedPair_comm (a b : String) : sortedPair a b = sortedPair b a := by
  rw [sortedPair, sortedPair]
  by_cases first : a ≤ b
  · rw [if_pos first]
    by_cases last : b ≤ a
    · rw [if_pos last, String.le_antisymm first last]
    · rw [if_neg last]
  · rw [if_neg first, if_pos ((String.le_total a b).resolve_left first)]

/-- The same two are the same pair, in whichever order they come. -/
theorem sortedPair_inj {a b c d : String} :
    sortedPair a b = sortedPair c d ↔ a = c ∧ b = d ∨ a = d ∧ b = c := by
  constructor
  · intro same
    rcases sortedPair_eq_or a b with h | h <;> rcases sortedPair_eq_or c d with k | k <;>
      obtain ⟨rfl, rfl⟩ := Prod.mk.inj (h.symm.trans (same.trans k))
    · exact .inl ⟨rfl, rfl⟩
    · exact .inr ⟨rfl, rfl⟩
    · exact .inr ⟨rfl, rfl⟩
    · exact .inl ⟨rfl, rfl⟩
  · rintro (⟨rfl, rfl⟩ | ⟨rfl, rfl⟩)
    · rfl
    · exact sortedPair_comm a b

end Event

/-! ## The pairs of a frame -/

namespace Play

/-- A pair by the ids of its sides, in order. -/
def idsOf (p : (String × Handle) × (String × Handle)) : String × String :=
  Event.sortedPair p.1.1 p.2.1

/-- If candidates have different ids, their pairs are different. -/
theorem nodup_pairsAmong {l : List Candidate} (distinct : (l.map Candidate.id).Nodup) :
    ((pairsAmong l).map idsOf).Nodup := by
  induction l with
  | nil => exact List.nodup_nil
  | cons a rest ih =>
    obtain ⟨other, distinct⟩ := List.nodup_cons.mp distinct
    have elsewhere : ∀ b ∈ rest, b.id ≠ a.id := fun b hb same =>
      other (List.mem_map.mpr ⟨b, hb, same⟩)
    rw [pairsAmong, List.map_append, List.map_map]
    refine List.nodup_append.mpr ⟨?_, ih distinct, ?_⟩
    · -- the pairs of one candidate differ in their other side
      refine List.pairwise_map.mpr (.imp_of_mem (fun hb hc apart same => ?_)
        ((List.pairwise_map.mp distinct).filter _))
      rcases Event.sortedPair_inj.mp same with ⟨-, same⟩ | ⟨same, -⟩
      · exact apart same
      · exact elsewhere _ (List.mem_of_mem_filter hc) same.symm
    · -- and those of the others are pairs without it
      rintro _ mine _ theirs rfl
      obtain ⟨b, -, hb⟩ := List.mem_map.mp mine
      obtain ⟨_, pair, same⟩ := List.mem_map.mp theirs
      obtain ⟨c, d, sub, -, -, rfl⟩ := mem_pairsAmong.mp pair
      have hc := elsewhere c (sub.subset List.mem_cons_self)
      have hd := elsewhere d (sub.subset (List.mem_cons_of_mem _ List.mem_cons_self))
      rcases Event.sortedPair_inj.mp (same.trans hb.symm) with ⟨same, -⟩ | ⟨-, same⟩
      · exact hc same
      · exact hd same

/-- Of two that can be sensed, and nobody else, there is one pair or none. -/
theorem overlappingPairs_of_two {s : Session} {listeners : List String} {e f : String × Handle}
    (present : ((s.stage.ids.filterMap fun id => (s.handle? id).map fun h => (id, h)).filter
      fun e => s.stage.isPerceptible e.2) = [e, f]) :
    overlappingPairs s listeners =
      if (listeners.contains e.1 || listeners.contains f.1) && s.stage.overlap e.2 f.2
      then [(e, f)] else [] := by
  rw [overlappingPairs, present]
  show List.map _ ([_].filter fun _ => (listeners.contains e.1 || listeners.contains f.1) &&
    s.stage.overlap e.2 f.2) ++ [] = _
  rw [List.append_nil, List.filter_singleton]
  cases (listeners.contains e.1 || listeners.contains f.1) && s.stage.overlap e.2 f.2 <;> rfl

end Play

namespace Session

variable {s t u : Session}

/-- The pairs that the touching phase goes through, each in order. -/
def pairs (s : Session) : List (String × String) := s.touchingPairs.map Play.idsOf

/-- Two are a pair exactly if both can be sensed, they overlap, and one of them listens. -/
theorem mem_pairs {a b : String} (other : a ≠ b) :
    Event.sortedPair a b ∈ s.pairs ↔ ∃ h k, Play.Present s (a, h) ∧ Play.Present s (b, k) ∧
      s.stage.overlap h k = true ∧ (a ∈ s.listeners .touching ∨ b ∈ s.listeners .touching) := by
  have apart : ∀ h k : Handle, (a, h) ≠ (b, k) := fun h k same => other (congrArg Prod.fst same)
  constructor
  · intro listed
    obtain ⟨⟨⟨x, h⟩, y, k⟩, found, same⟩ := List.mem_map.mp listed
    rcases Event.sortedPair_inj.mp same with ⟨rfl, rfl⟩ | ⟨rfl, rfl⟩
    · exact ⟨h, k, (Play.mem_overlappingPairs (apart h k)).mp (.inl found)⟩
    · exact ⟨k, h, (Play.mem_overlappingPairs (apart k h)).mp (.inr found)⟩
  · rintro ⟨h, k, pair⟩
    refine List.mem_map.mpr ?_
    rcases (Play.mem_overlappingPairs (apart h k)).mpr pair with found | found
    · exact ⟨_, found, rfl⟩
    · exact ⟨_, found, Event.sortedPair_comm b a⟩

theorem nodup_pairs (order : s.stage.Orderly) : s.pairs.Nodup := by
  refine Play.nodup_pairsAmong ?_
  rw [List.map_map]
  -- candidates are listed by the order of registration, each at most once
  have listed : ∀ ids : List String, ((ids.filterMap fun id =>
      (s.handle? id).map fun h => (id, h)).map Prod.fst).Sublist ids := by
    intro ids
    induction ids with
    | nil => exact .slnil
    | cons id rest ih =>
      cases found : s.handle? id with
      | none =>
        rw [List.filterMap_cons_none (by rw [found]; rfl)]
        exact ih.cons id
      | some h =>
        rw [List.filterMap_cons_some (by rw [found]; rfl)]
        exact ih.cons_cons id
  exact (((List.filter_sublist).map Prod.fst).trans (listed s.stage.ids)).nodup order.ids

/-- If nobody listens, there are no pairs. -/
theorem pairs_of_silence (silent : s.listeners .touching = []) : s.pairs = [] := by
  refine List.map_eq_nil_iff.mpr (List.eq_nil_iff_forall_not_mem.mpr fun pair found => ?_)
  obtain ⟨-, -, -, listening⟩ := Play.of_mem_overlappingPairs found
  rw [silent] at listening
  rcases listening with no | no <;> cases no

end Session

/-! ## Delivering pairs -/

/-- What is kept once pairs have been noted, and told of unless they were noted in an earlier
    update. -/
def Session.Keepsakes.noted (k : Session.Keepsakes) (pairs : List (String × String)) :
    Session.Keepsakes :=
  { k with
    touching := k.touching ++ pairs
    onsets := k.onsets ++ pairs.filter fun p => !k.touchingBefore.contains p }

namespace Session.Keepsakes

theorem noted_nil (k : Keepsakes) : k.noted [] = k := by
  rw [noted, List.filter_nil, List.append_nil, List.append_nil]

theorem noted_noted (k : Keepsakes) (l m : List (String × String)) :
    (k.noted l).noted m = k.noted (l ++ m) := by
  simp only [noted, List.filter_append, List.append_assoc]

end Session.Keepsakes

/-- Two that touch are noted, and told of unless they were noted in an earlier update. -/
def Session.noteTouch (s : Session) (a b : String) : Session :=
  let key := Event.sortedPair a b
  if s.touchingBefore.contains key then { s with touching := s.touching ++ [key] }
  else { s with touching := s.touching ++ [key] }.emit (.touching a b)

/-- The turn of a pair: it is noted, and told of unless it was noted in an earlier update. -/
theorem Session.keepsakes_noteTouch (s : Session) (a b : String) :
    (s.noteTouch a b).keepsakes = s.keepsakes.noted [Event.sortedPair a b] := by
  have onsets : (s.noteTouch a b).onsets = (s.keepsakes.noted [Event.sortedPair a b]).onsets := by
    by_cases before : s.touchingBefore.contains (Event.sortedPair a b) = true
    · have none : [Event.sortedPair a b].filter (fun p => !s.touchingBefore.contains p) = [] := by
        rw [List.filter_cons_of_neg (by rw [before]; exact Bool.false_ne_true), List.filter_nil]
      rw [Session.noteTouch, if_pos before]
      exact (List.append_nil _).symm.trans (congrArg (s.onsets ++ ·) none.symm)
    · have one : [Event.sortedPair a b].filter (fun p => !s.touchingBefore.contains p)
          = [Event.sortedPair a b] := by
        rw [List.filter_cons_of_pos (by rw [Bool.eq_false_iff.mpr before]; rfl), List.filter_nil]
      rw [Session.noteTouch, if_neg before]
      exact List.filterMap_append.trans (congrArg (s.onsets ++ ·) one.symm)
  have others : (s.noteTouch a b).sounds = s.sounds ∧
      (s.noteTouch a b).touching = s.touching ++ [Event.sortedPair a b] ∧
      (s.noteTouch a b).touchingBefore = s.touchingBefore := by
    rw [Session.noteTouch]
    split <;> exact ⟨rfl, rfl, rfl⟩
  rw [Session.keepsakes, others.1, others.2.1, others.2.2, onsets]
  rfl

/-- Pairs have been noted one after the other: all of them, if there is an answer; otherwise the
    session has been stopped meanwhile. -/
structure Session.Noted (k : Session.Keepsakes) (pairs : List (String × String))
    (answer : Option Play.Fired) (t : Session) : Prop where
  part : ∃ done, done <+: pairs ∧ t.keepsakes = k.noted done
  all : answer ≠ none → t.keepsakes = k.noted pairs
  idle : answer = none → t.running = false

namespace Play

open Session (Noted)

theorem aloof_deliverSide (id : String) (viewer other : Handle) (l : List Behavior)
    (fired : Fired) : Aloof (deliverSide id viewer other l fired) :=
  housekeeping_aloof.deliverSide aloof_launch id viewer other l (fun _ _ => trivial) fired

/-- **Pairs are noted one after the other**, as long as none of them has been noted. -/
theorem after_deliverPairs {l : List ((String × Handle) × (String × Handle))} {fired : Fired}
    {s : Session} (new : (s.touching ++ l.map idsOf).Nodup) :
    After (deliverPairs l fired) s (Noted s.keepsakes (l.map idsOf)) := by
  induction l generalizing fired s with
  | nil =>
    have none := s.keepsakes.noted_nil.symm
    exact ⟨⟨[], List.nil_prefix, none⟩, fun _ => none, fun h => by cases h⟩
  | cons pair rest ih =>
    obtain ⟨a, b⟩ := pair
    have unseen : s.touching.contains (Event.sortedPair a.1 b.1) = false :=
      Bool.eq_false_iff.mpr fun seen => (List.nodup_append.mp new).2.2 _
        (List.contains_iff_mem.mp seen) _ List.mem_cons_self rfl
    refine .get_bind ?_
    by_cases going : s.running = true
    · rw [if_neg (by rw [going]; exact Bool.false_ne_true),
        if_neg (by rw [unseen]; exact Bool.false_ne_true)]
      refine After.bind (Q := fun _ t => t.keepsakes = s.keepsakes.noted [Event.sortedPair a.1 b.1])
        (s.keepsakes_noteTouch a.1 b.1) fun _ t ht => ?_
      refine .ask_bind ((aloof_deliverSide _ _ _ _ _).after t |>.bind fun _ u hu => ?_)
      refine .ask_bind ((aloof_deliverSide _ _ _ _ _).after u |>.bind fun _ v hv => ?_)
      -- the scripts of both sides have noted nothing, so the others are as new as they were
      have kept := (hv.trans hu).trans ht
      have touching : v.touching = s.touching ++ [Event.sortedPair a.1 b.1] :=
        congrArg Session.Keepsakes.touching kept
      refine (ih (by rw [touching, List.append_assoc]; exact new)).mono fun answer w hw => ?_
      obtain ⟨⟨done, first, part⟩, all, idle⟩ := hw
      rw [kept, Session.Keepsakes.noted_noted] at part all
      exact ⟨⟨_, List.prefix_cons_inj _ |>.mpr first, part⟩, all, idle⟩
    · have idle := Bool.eq_false_iff.mpr going
      rw [if_pos (by rw [idle]; rfl)]
      exact ⟨⟨[], List.nil_prefix, s.keepsakes.noted_nil.symm⟩, fun h => absurd rfl h, fun _ => idle⟩

end Play

/-! ## The touching phase -/

namespace Session

variable {s : Session} {dt : Float32}

/-- The touching phase is completed: it returns, and it isn't broken off because a script has stopped
    the session. -/
structure Completes (s : Session) : Prop where
  returns : Play.deliverTouches.returns s = true
  pairs : s.listeners .touching ≠ [] → ∃ fired t,
    Play.deliverPairs s.touchingPairs [] { s with touching := [] } = .ok (some fired) t

/-- If nobody listens, the pairs are forgotten. -/
theorem deliverTouches_of_silence (silent : s.listeners .touching = []) :
    Play.deliverTouches s = .ok () { s with touching := [], touchingBefore := [] } := by
  have none : (s.listeners .touching).isEmpty = true := by rw [silent]; rfl
  show (if (s.listeners .touching).isEmpty then _ else _ : Play Unit) { s with touching := [] } = _
  rw [none]
  rfl

/-- The pairs of a frame are noted from the first on. -/
theorem after_touchingPairs (order : s.stage.Orderly) :
    Play.After (Play.deliverPairs s.touchingPairs []) { s with touching := [] }
      (Noted ({ s with touching := [] } : Session).keepsakes s.pairs) :=
  Play.after_deliverPairs (s := { s with touching := [] }) (nodup_pairs order)

/-- **A touching phase that is completed** tells of the pairs that were not noted before, and notes
    all pairs in their place. -/
theorem Completes.noted (h : s.Completes) (order : s.stage.Orderly) :
    (Play.deliverTouches.last s).touchingBefore = s.pairs ∧
      (Play.deliverTouches.last s).onsets
        = s.onsets ++ s.pairs.filter fun p => !s.touchingBefore.contains p := by
  by_cases silent : s.listeners .touching = []
  · rw [Play.last_of_ok (deliverTouches_of_silence silent), pairs_of_silence silent]
    exact ⟨rfl, (List.append_nil _).symm⟩
  obtain ⟨fired, t, delivered⟩ := h.pairs silent
  have all := ((after_touchingPairs order).of_eq delivered).all (Option.some_ne_none fired)
  have phase : Play.After Play.deliverTouches s fun _ v => v.touchingBefore = s.pairs ∧
      v.onsets = s.onsets ++ s.pairs.filter fun p => !s.touchingBefore.contains p := by
    rw [Play.After, deliverTouches_eq silent, Play.bind_of_ok delivered]
    refine ((Play.housekeeping_aloof.deliverWorlds Play.aloof_launch _ _).after t).bind
      fun _ v kept => ?_
    have kept := kept.trans all
    exact ⟨congrArg Keepsakes.touching kept, congrArg Keepsakes.onsets kept⟩
  obtain ⟨_, ended⟩ := Play.eq_of_returns h.returns
  exact phase.of_eq ended

/-- A touching phase that returns without being completed leaves an idle session, and what was noted
    before. -/
theorem broken_deliverTouches (order : s.stage.Orderly)
    (returns : Play.deliverTouches.returns s = true) (broken : ¬s.Completes) :
    (Play.deliverTouches.last s).running = false ∧
      (Play.deliverTouches.last s).touchingBefore = s.touchingBefore := by
  have listening : s.listeners .touching ≠ [] := fun silent =>
    broken ⟨returns, fun h => (h silent).elim⟩
  have phase := deliverTouches_eq listening
  cases delivered : Play.deliverPairs s.touchingPairs [] { s with touching := [] } with
  | error e t =>
    rw [Play.returns, phase, Play.bind_of_error delivered] at returns
    cases returns
  | ok answer t =>
    cases answer with
    | some fired => exact (broken ⟨returns, fun _ => ⟨fired, t, delivered⟩⟩).elim
    | none =>
      have noted := (after_touchingPairs order).of_eq delivered
      obtain ⟨done, -, part⟩ := noted.part
      have last : Play.deliverTouches.last s = t := by
        refine Play.last_of_ok (a := ()) ?_
        rw [phase, Play.bind_of_ok delivered]
        rfl
      rw [last]
      exact ⟨noted.idle rfl, congrArg Keepsakes.touchingBefore part⟩

/-! ## Frames -/

/-- An update of so many seconds finds the session running, gets to its touching phase, and completes
    it. -/
structure Frame (s : Session) (dt : Float32) : Prop where
  running : s.running = true
  reached : (Play.untilTouches dt).returns s = true
  still : ((Play.untilTouches dt).last s).running = true
  completes : ((Play.untilTouches dt).last s).Completes

/-- The pairs of an update: those that its touching phase goes through. -/
def pairsAt (s : Session) (dt : Float32) : List (String × String) :=
  ((Play.untilTouches dt).last s).pairs

/-- Up to the touching phase everyone stays registered in order. -/
theorem orderly_untilTouches (hs : Visited s) (running : s.running = true) :
    ((Play.untilTouches dt).last s).stage.Orderly :=
  (stable_registry.trace ((Chronicle.tells_untilTouches dt).trace s running)
    (registry_of_visited hs)).stage

/-- **A frame** tells of its pairs that were not noted before, and notes its pairs in their place. -/
theorem Frame.noted (h : s.Frame dt) (hs : Visited s) :
    ((Play.updateBy dt).last s).touchingBefore = s.pairsAt dt ∧
      ((Play.updateBy dt).last s).onsets
        = s.onsets ++ (s.pairsAt dt).filter fun p => !s.touchingBefore.contains p := by
  obtain ⟨inbox, reached⟩ := Play.eq_of_returns h.reached
  obtain ⟨_, delivered⟩ := Play.eq_of_returns h.completes.returns
  obtain ⟨before, onsets⟩ := h.completes.noted (orderly_untilTouches hs h.running)
  rw [Play.last_congr (Play.updateBy_of_running dt h.running), Play.last_bind_of_ok reached,
    Play.last_congr (Play.sinceTouches_of_running inbox h.still), Play.last_bind_of_ok delivered]
  -- what comes before the phase and after it is aloof
  have early := Play.aloof_untilTouches dt s
  have late := Play.aloof_afterTouches inbox
    (Play.deliverTouches.last ((Play.untilTouches dt).last s))
  rw [show ((Play.untilTouches dt).last s).onsets = s.onsets from congrArg Keepsakes.onsets early,
    show ((Play.untilTouches dt).last s).touchingBefore = s.touchingBefore from
      congrArg Keepsakes.touchingBefore early] at onsets
  exact ⟨(congrArg Keepsakes.touchingBefore late).trans before,
    (congrArg Keepsakes.onsets late).trans onsets⟩

/-- An update that returns without being a frame leaves an idle session, and what was noted
    before. -/
theorem broken_updateBy (hs : Visited s) (returns : (Play.updateBy dt).returns s = true)
    (broken : ¬s.Frame dt) : ((Play.updateBy dt).last s).running = false ∧
      ((Play.updateBy dt).last s).touchingBefore = s.touchingBefore := by
  by_cases running : s.running = true
  · have round := Play.updateBy_of_running dt running
    rw [Play.returns_congr round] at returns
    rw [Play.last_congr round]
    obtain ⟨inbox, reached, returns⟩ := Play.returns_of_bind returns
    have early : ((Play.untilTouches dt).last s).touchingBefore = s.touchingBefore :=
      congrArg Keepsakes.touchingBefore (Play.aloof_untilTouches dt s)
    rw [Play.last_bind_of_ok reached, ← early]
    generalize there : (Play.untilTouches dt).last s = u at *
    have late : ∀ v, ((Play.afterTouches inbox).last v).touchingBefore = v.touchingBefore :=
      fun v => congrArg Keepsakes.touchingBefore (Play.aloof_afterTouches inbox v)
    by_cases still : u.running = true
    · -- the phase has begun, so it has been broken off
      rw [Play.returns_congr (Play.sinceTouches_of_running inbox still)] at returns
      rw [Play.last_congr (Play.sinceTouches_of_running inbox still)]
      obtain ⟨_, delivered, -⟩ := Play.returns_of_bind returns
      have phase : Play.deliverTouches.returns u = true := by rw [Play.returns, delivered]
      obtain ⟨idle, before⟩ := broken_deliverTouches (there ▸ orderly_untilTouches hs running) phase
        fun completes => broken ⟨running, by rw [Play.returns, reached], there ▸ still,
          there ▸ completes⟩
      rw [Play.last_bind_of_ok delivered]
      exact ⟨Play.idle_afterTouches idle, (late _).trans before⟩
    · have idle := Bool.eq_false_iff.mpr still
      rw [Play.last_congr (Play.sinceTouches_of_idle inbox idle)]
      exact ⟨Play.idle_afterTouches idle, late u⟩
  · have idle := Bool.eq_false_iff.mpr running
    rw [Play.last_of_ok (Play.updateBy_of_idle dt idle)]
    exact ⟨idle, rfl⟩

/-- So an update that leaves the session running has completed its touching phase. -/
theorem frame_of_running (hs : Visited s) (returns : (Play.updateBy dt).returns s = true)
    (running : ((Play.updateBy dt).last s).running = true) : s.Frame dt := by
  by_contra broken
  rw [(broken_updateBy hs returns broken).1] at running
  cases running

/-! ## Histories -/

/-- A session between calls that have all returned, with the pairs of the previous frame of the run
    that is under way, if it has had one, and those of the last frame since the stage was cleared. -/
inductive Remembers : Session → Option (List (String × String)) → List (String × String) → Prop where
  | fresh (config : Config) (g : Generator) (budget : Nat) :
    Remembers (fresh config g budget) none []
  | frame {s : Session} {run : Option (List (String × String))} {stage : List (String × String)}
    {c : Call} {dt : Float32} (hs : Remembers s run stage) (time : c.time? s = some dt)
    (h : s.Frame dt) (returns : c.run.returns s = true) :
    Remembers (c.run.last s) (if (c.run.last s).running then some (s.pairsAt dt) else none)
      (s.pairsAt dt)
  | clear {s : Session} {run : Option (List (String × String))} {stage : List (String × String)}
    {c : Call} (hs : Remembers s run stage) (hc : ¬c.KeepsScene)
    (returns : c.run.returns s = true) : Remembers (c.run.last s) none []
  | other {s : Session} {run : Option (List (String × String))} {stage : List (String × String)}
    {c : Call} (hs : Remembers s run stage) (hc : c.KeepsScene)
    (h : ∀ dt, c.time? s = some dt → ¬s.Frame dt) (returns : c.run.returns s = true) :
    Remembers (c.run.last s) (if (c.run.last s).running then run else none) stage

/-- Time passes in updates only. -/
theorem time?_eq_none_iff {c : Call} : c.time? s = none ↔ c.isUpdate = false := by
  cases c with
  | script c => cases c <;> first | exact iff_of_true rfl rfl | exact iff_of_false nofun nofun
  | _ => exact iff_of_true rfl rfl

/-- After the stage has been cleared no touch is noted. -/
theorem touchingBefore_of_clears {c : Call} (hc : ¬c.KeepsScene) (s : Session) :
    (c.run.last s).touchingBefore = [] := by
  cases c with
  | loadScene scene => exact (loads_loadScene s scene).touchingBefore
  | cleanup => rfl
  | _ => exact absurd trivial hc

namespace Remembers

variable {run : Option (List (String × String))} {stage : List (String × String)}

theorem reachable (h : Remembers s run stage) : Reachable s := by
  have next : ∀ {s : Session} {c : Call}, Reachable s → c.run.returns s = true →
      Reachable (c.run.last s) := by
    intro s c hs returns
    obtain ⟨_, ended⟩ := Play.eq_of_returns returns
    exact hs.call c ended
  induction h with
  | fresh config g budget => exact .fresh config g budget
  | frame _ _ _ returns ih => exact next ih returns
  | clear _ _ returns ih => exact next ih returns
  | other _ _ _ returns ih => exact next ih returns

/-- **What is noted between calls** are the pairs of the last frame since the stage was cleared, and
    the previous frame of a run is that frame. -/
theorem noted (h : Remembers s run stage) :
    s.touchingBefore = stage ∧ ∀ before, run = some before → before = stage := by
  induction h with
  | fresh config g budget => exact ⟨rfl, fun _ h => by cases h⟩
  | @frame s _ _ c dt hs time h returns _ =>
    rw [Play.last_congr (Call.run_of_time? time)]
    refine ⟨(h.noted hs.reachable.visited).1, fun before same => ?_⟩
    split at same
    · exact (Option.some.inj same).symm
    · cases same
  | @clear s _ _ c hs hc returns _ => exact ⟨touchingBefore_of_clears hc s, fun _ h => by cases h⟩
  | @other s run stage c hs hc h returns ih =>
    have same : (c.run.last s).touchingBefore = s.touchingBefore := by
      cases time : c.time? s with
      | none => exact touchingBefore_last (time?_eq_none_iff.mp time) hc s
      | some dt =>
        have round := Call.run_of_time? time
        rw [Play.returns_congr round] at returns
        rw [Play.last_congr round]
        exact (broken_updateBy hs.reachable.visited returns (h dt time)).2
    refine ⟨same.trans ih.1, fun before same => ?_⟩
    split at same
    · exact ih.2 before same
    · cases same

/-- Calls that neither update nor clear the stage leave a run without frames without frames. -/
theorem others (h : Remembers s none stage) {l : List Call}
    (hl : ∀ c ∈ l, c.KeepsScene ∧ c.isUpdate = false) (returns : s.allReturn l = true) :
    Remembers (s.after l) none stage := by
  induction l generalizing s with
  | nil => exact h
  | cons c rest ih =>
    obtain ⟨returned, others⟩ := Bool.and_eq_true_iff.mp returns
    obtain ⟨keeps, idle⟩ := hl c List.mem_cons_self
    have first := h.other keeps
      (fun dt time => by cases time.symm.trans (time?_eq_none_iff.mpr idle)) returned
    rw [ite_self] at first
    exact ih first (fun d hd => hl d (List.mem_cons_of_mem c hd)) others

end Remembers

/-- There is something to remember for every session that calls lead to. -/
theorem remembers_of_reachable (hs : Reachable s) : ∃ run stage, Remembers s run stage := by
  induction hs with
  | fresh config g budget => exact ⟨_, _, .fresh config g budget⟩
  | @call s t c _ hc ih =>
    obtain ⟨run, stage, h⟩ := ih
    have returns : c.run.returns s = true := by rw [Play.returns, hc]
    rw [← Play.last_of_ok hc]
    by_cases keeps : c.KeepsScene
    · by_cases frame : ∃ dt, c.time? s = some dt ∧ s.Frame dt
      · obtain ⟨dt, time, frame⟩ := frame
        exact ⟨_, _, h.frame time frame returns⟩
      · exact ⟨_, _, h.other keeps (fun dt time no => frame ⟨dt, time, no⟩) returns⟩
    · exact ⟨_, _, h.clear keeps returns⟩

/-! ## Two side by side -/

end Session

namespace Play

variable {s : Session} {dt : Float32}

/-- The touching phase, going through the given pairs. -/
def deliverThese (pairs : List ((String × Handle) × (String × Handle))) : Play Unit := do
  let listeners ← ask fun s => (s.listeners .touching).filterMap fun id =>
    (s.handle? id).map fun h => (id, h)
  change fun s => { s with touching := [] }
  match ← deliverPairs pairs [] with
  | none => return ()
  | some fired =>
    deliverWorlds listeners fired
    change fun s => { s with touchingBefore := s.touching }

/-- A round of which the touching phase goes through the given pairs. -/
def updateWith (dt : Float32) (pairs : List ((String × Handle) × (String × Handle))) :
    Play Unit := do
  let inbox ← untilTouches dt
  deliverThese pairs
  afterTouches inbox

/-- A round that gets to its touching phase goes through the pairs that it finds there, if someone
    listens. -/
theorem updateBy_of_listening (running : s.running = true)
    (reached : (untilTouches dt).returns s = true)
    (still : ((untilTouches dt).last s).running = true)
    (listening : ((untilTouches dt).last s).listeners .touching ≠ []) :
    updateBy dt s = updateWith dt ((untilTouches dt).last s).touchingPairs s := by
  obtain ⟨inbox, reached⟩ := eq_of_returns reached
  have phase : deliverTouches ((untilTouches dt).last s)
      = deliverThese ((untilTouches dt).last s).touchingPairs ((untilTouches dt).last s) :=
    Session.deliverTouches_eq listening
  rw [updateBy_of_running dt running, bind_of_ok reached, sinceTouches_of_running inbox still,
    updateWith, bind_of_ok reached]
  show EStateM.bind _ _ _ = EStateM.bind _ _ _
  rw [EStateM.bind, EStateM.bind, phase]

end Play

namespace Session

variable {s : Session} {dt : Float32}

/-- The box around an entity of which nothing has been set. -/
def plainBox : Box Float32 :=
  Stage.drawnBox ⟨[], 0, true, 0, Vec.both 64⟩ ⟨⟨240, 180⟩, -0, Vec.both 1⟩

/-- It overlaps itself, given the cosine and the sine of its rotation, for which there are no
    equations to compute with. -/
theorem overlaps_plainBox (cosine : Float32.cos (-0) = 1) (sine : Float32.sin (-0) = -0) :
    plainBox.overlaps plainBox = true := by
  have heading : Vec.ofAngle (-0 : Float32) = ⟨1, -0⟩ := congrArg₂ Vec.mk cosine sine
  rw [plainBox, Stage.drawnBox, heading]
  decide +kernel

/-- The pairs of two who are side by side. -/
def abreast : List ((String × Handle) × (String × Handle)) :=
  if plainBox.overlaps plainBox then [(("a", 0), ("b", 1))] else []

theorem abreast_eq_or : abreast = [] ∨ abreast = [(("a", 0), ("b", 1))] := by
  rw [abreast]
  split
  · exact .inr rfl
  · exact .inl rfl

/-- An update gets to its touching phase, where two are side by side and one of them listens. -/
structure Abreast (s : Session) (dt : Float32) : Prop where
  running : s.running = true
  reached : (Play.untilTouches dt).returns s = true
  still : ((Play.untilTouches dt).last s).running = true
  present : ((((Play.untilTouches dt).last s).stage.ids.filterMap fun id =>
    (((Play.untilTouches dt).last s).handle? id).map fun h => (id, h)).filter fun e =>
      ((Play.untilTouches dt).last s).stage.isPerceptible e.2) = [("a", 0), ("b", 1)]
  listening : ((Play.untilTouches dt).last s).listeners .touching = ["a"]
  first : ((Play.untilTouches dt).last s).stage.silhouette 0 = ⟨some plainBox, none⟩
  second : ((Play.untilTouches dt).last s).stage.silhouette 1 = ⟨some plainBox, none⟩

theorem Abreast.touchingPairs (h : s.Abreast dt) :
    ((Play.untilTouches dt).last s).touchingPairs = abreast := by
  rw [Session.touchingPairs, Play.overlappingPairs_of_two h.present, h.listening, Stage.overlap,
    h.first, h.second]
  rfl

theorem Abreast.updateBy (h : s.Abreast dt) :
    Play.updateBy dt s = Play.updateWith dt abreast s := by
  rw [← h.touchingPairs]
  refine Play.updateBy_of_listening h.running h.reached h.still ?_
  rw [h.listening]
  exact List.cons_ne_nil _ _

/-- It is a frame if it leaves the session running. -/
theorem Abreast.frame (h : s.Abreast dt) (hs : Reachable s)
    (returns : (Play.updateWith dt abreast).returns s = true)
    (running : ((Play.updateWith dt abreast).last s).running = true) : s.Frame dt := by
  rw [← Play.returns_congr h.updateBy] at returns
  rw [← Play.last_congr h.updateBy] at running
  exact frame_of_running hs.visited returns running

/-- Two are side by side, and one of them waits for touches of the other; the session has been
    started. -/
def meeting : Session :=
  (fresh .usual (Generator.ofSeed 0) 5).after
    [.register (Spawn.new "a"), .register (Spawn.new "b"),
      .addBehaviors "a" ⟨[⟨0, .touching (.entity "b"), []⟩], [], 1⟩, .script .start]

theorem remembers_meeting : Remembers meeting none [] :=
  (Remembers.fresh _ _ _).others (by simp [Call.KeepsScene, Call.isUpdate]) (by decide +kernel)

theorem abreast_meeting : meeting.Abreast 0 := by
  constructor
  case first => rfl
  case second => rfl
  all_goals decide +kernel

theorem updateWith_meeting : (Play.updateWith 0 abreast).returns meeting = true ∧
    ((Play.updateWith 0 abreast).last meeting).running = true := by
  rcases abreast_eq_or with pairs | pairs <;> rw [pairs] <;> decide +kernel

theorem frame_meeting : meeting.Frame 0 :=
  abreast_meeting.frame remembers_meeting.reachable updateWith_meeting.1 updateWith_meeting.2

/-- After a frame the session has been stopped and started again. -/
def reunion : Session := meeting.after [.script (.updateBy 0), .stopAll, .script .start]

theorem reunion_eq :
    reunion = ((Play.updateWith 0 abreast).last meeting).after [.stopAll, .script .start] := by
  rw [← Play.last_congr abreast_meeting.updateBy]
  rfl

theorem remembers_reunion : Remembers reunion none (meeting.pairsAt 0) := by
  have round : (Call.script (.updateBy 0)).run meeting = Play.updateWith 0 abreast meeting :=
    (Call.run_of_time? rfl).trans abreast_meeting.updateBy
  have first := remembers_meeting.frame rfl frame_meeting
    ((Play.returns_congr round).trans updateWith_meeting.1)
  rw [Play.last_congr round] at first
  have stopped := first.other (c := .stopAll) trivial nofun rfl
  have idle : (Call.stopAll.run.last ((Play.updateWith 0 abreast).last meeting)).running
      = false := by
    rcases abreast_eq_or with pairs | pairs <;> rw [pairs] <;> decide +kernel
  rw [idle, if_neg Bool.false_ne_true] at stopped
  rw [reunion_eq]
  refine stopped.others (l := [.script .start]) (by simp [Call.KeepsScene, Call.isUpdate]) ?_
  rcases abreast_eq_or with pairs | pairs <;> rw [pairs] <;> decide +kernel

theorem abreast_reunion : reunion.Abreast 0 := by
  rw [reunion_eq]
  rcases abreast_eq_or with pairs | pairs <;> rw [pairs] <;> constructor
  case inl.first | inl.second | inr.first | inr.second => with_unfolding_all rfl
  all_goals decide +kernel

theorem frame_reunion : reunion.Frame 0 := by
  have ended : (Play.updateWith 0 abreast).returns reunion = true ∧
      ((Play.updateWith 0 abreast).last reunion).running = true := by
    rw [reunion_eq]
    rcases abreast_eq_or with pairs | pairs <;> rw [pairs] <;> decide +kernel
  exact abreast_reunion.frame remembers_reunion.reachable ended.1 ended.2

/-! ## The specification -/

/-- Hosts are told of each pair that is among some pairs and not among others, once, and of no other
    pair. -/
def Announces (s t : Session) (pairs before : List (String × String)) : Prop :=
  ∀ pair, t.onsets.count pair
    = s.onsets.count pair + if pair ∈ pairs ∧ pair ∉ before then 1 else 0

/-- What hosts are told in a frame of which the touching phase begins at one session and that ends
    with another. -/
structure Onsets (run : Option (List (String × String))) (stage : List (String × String))
    (s u t : Session) : Prop where
  /-- Two are a pair of the frame exactly if both can be sensed, they overlap, and one listens. -/
  pairs : ∀ a b, a ≠ b → (Event.sortedPair a b ∈ u.pairs ↔
    ∃ h k, Play.Present u (a, h) ∧ Play.Present u (b, k) ∧ u.stage.overlap h k = true ∧
      (a ∈ u.listeners .touching ∨ b ∈ u.listeners .touching))
  /-- They are told of the pairs that are not among those of the last frame on this stage, even if
      that frame belongs to an earlier run. -/
  told : s.Announces t u.pairs stage
  /-- If the run has had a frame before, these are the pairs that the previous frame did not have. -/
  later : ∀ before, run = some before → s.Announces t u.pairs before
  /-- In the first frame of a run they are told of all pairs, as they should be, exactly if the last
      frame on this stage had none of them. -/
  first : run = none → (s.Announces t u.pairs [] ↔ ∀ pair ∈ u.pairs, pair ∉ stage)

theorem announces_of_told {pairs before : List (String × String)} (distinct : pairs.Nodup)
    (told : t.onsets = s.onsets ++ pairs.filter fun p => !before.contains p) :
    s.Announces t pairs before := by
  intro pair
  have new : (pairs.filter fun p => !before.contains p).count pair
      = if pair ∈ pairs ∧ pair ∉ before then 1 else 0 := by
    refine (distinct.filter _).count.trans (if_congr ?_ rfl rfl)
    rw [List.mem_filter, Bool.not_eq_true', ← Bool.not_eq_true, List.contains_iff_mem]
  rw [told, List.count_append, new]

/-- **When hosts are told that two have begun to touch**, whatever has been called before. -/
theorem onsets_of_remembers {run : Option (List (String × String))}
    {stage : List (String × String)} (h : Remembers s run stage) {c : Call}
    (time : c.time? s = some dt) (frame : s.Frame dt) :
    Onsets run stage s ((Play.untilTouches dt).last s) (c.run.last s) := by
  have visited := h.reachable.visited
  have order : ((Play.untilTouches dt).last s).stage.Orderly :=
    orderly_untilTouches visited frame.running
  obtain ⟨before, previous⟩ := h.noted
  obtain ⟨-, onsets⟩ := frame.noted visited
  rw [before] at onsets
  have told : s.Announces (c.run.last s) (s.pairsAt dt) stage := by
    rw [Play.last_congr (Call.run_of_time? time)]
    exact announces_of_told (nodup_pairs order) onsets
  refine ⟨fun a b other => mem_pairs other, told, fun before same => previous before same ▸ told,
    fun _ => ⟨fun all pair among noted => ?_, fun new pair => ?_⟩⟩
  · -- a pair that is noted from an earlier frame is not told of, though it should be
    have once := (told pair).symm.trans (all pair)
    rw [if_neg fun no => no.2 noted, if_pos ⟨among, List.not_mem_nil⟩] at once
    omega
  · refine (told pair).trans (congrArg (s.onsets.count pair + ·) (if_congr ?_ rfl rfl))
    exact ⟨fun h => ⟨h.1, List.not_mem_nil⟩, fun h => ⟨h.1, new pair h.1⟩⟩

/-- The first frame of a run, on a stage that has had none. -/
theorem onsets_meeting : Onsets none [] meeting ((Play.untilTouches 0).last meeting)
    ((Call.script (.updateBy 0)).run.last meeting) :=
  onsets_of_remembers remembers_meeting rfl frame_meeting

/-- The first frame of a second run: if boxes at one place overlap, which follows from the cosine and
    the sine of nought, it has a pair, and hosts are not told of it. -/
theorem unannounced_reunion : Remembers reunion none (meeting.pairsAt 0) ∧ reunion.Frame 0 ∧
    ¬(Float32.cos (-0) = 1 ∧ Float32.sin (-0) = -0 ∧
      reunion.Announces ((Call.script (.updateBy 0)).run.last reunion) (reunion.pairsAt 0) []) := by
  refine ⟨remembers_reunion, frame_reunion, ?_⟩
  rintro ⟨cosine, sine, announced⟩
  have one : abreast = [(("a", 0), ("b", 1))] := if_pos (overlaps_plainBox cosine sine)
  have pairs : reunion.pairsAt 0 = [("a", "b")] := by
    rw [pairsAt, Session.pairs, abreast_reunion.touchingPairs, one]
    decide +kernel
  have round : (Call.script (.updateBy 0)).run reunion = Play.updateWith 0 abreast reunion :=
    (Call.run_of_time? rfl).trans abreast_reunion.updateBy
  have once := announced ("a", "b")
  rw [pairs, Play.last_congr round, reunion_eq, one] at once
  revert once
  decide +kernel

end Session

end BlockStage
