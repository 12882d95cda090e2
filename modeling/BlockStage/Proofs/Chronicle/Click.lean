/-
  Clicks: who is clicked, and what a click launches.

  1. **Specification (`Session.Topmost`)** — of those that can be sensed and are hit at a point, in
     the order of registration (`Session.pointedAt`), the topmost one is in front of all that come
     after it, and no further back than any that come before it.

  2. **Who is clicked (`Play.topmost?_eq`)** — one pass over the stage keeps the best so far and
     gives it up for whoever is at least as far in front.  The pass is a fold over `pointedAt`, and
     after any part of it the best is the frontmost of that part (`Play.best_spec`).

  3. **What is launched (`Session.Clicking`)** — the behaviors that the topmost entity has for clicks
     have a turn each, in the order of the catalog.  A script of one of them may delete or stop
     anyone, or break off; so the moments are told for a click that ends (`Stints`) and for one that
     breaks off in one of the scripts (`Snapped`).
-/
import BlockStage.Proofs.Chronicle.Laps
import BlockStage.Proofs.Chronicle.Onset
import Mathlib.Data.List.Induction

namespace BlockStage

namespace Session

variable {s : Session} {p : Vec Float32} {id : String}

/-! ## The specification -/

/-- Can an entity be sensed, and is it hit at a point? -/
def isPointedAt (s : Session) (p : Vec Float32) (id : String) : Bool :=
  match s.handle? id with
  | some h => s.stage.isPerceptible h && s.stage.isHit h p
  | none => false

/-- Those that are at the point, in the order of registration. -/
def pointedAt (s : Session) (p : Vec Float32) : List String := s.stage.ids.filter (s.isPointedAt p)

/-- The depth at which an entity is drawn; what is further in front has the greater one. -/
def depthOf (s : Session) (id : String) : Int :=
  match (s.handle? id).bind s.stage.actor? with
  | some a => a.look.depth
  | none => 0

/-- Of those in a list, the last one of the greatest depth. -/
def Frontmost (s : Session) (l : List String) (id : String) : Prop :=
  ∃ before after, l = before ++ id :: after ∧
    (∀ j ∈ before, s.depthOf j ≤ s.depthOf id) ∧ ∀ j ∈ after, s.depthOf j < s.depthOf id

/-- The topmost of those that are at the point. -/
def Topmost (s : Session) (p : Vec Float32) (id : String) : Prop := s.Frontmost (s.pointedAt p) id

/-- The behaviors that an entity has for clicks, in the order of its catalog. -/
def clicks (s : Session) (id : String) : List Behavior := s.behaviors id fun t => t == .click

/-- The session when the button has been pressed at a point. -/
def pressed (s : Session) (p : Vec Float32) : Session :=
  { s with input := { s.input with pointer := p, pressed := true } }

theorem click_of_mem_clicks {b : Behavior} (h : b ∈ s.clicks id) : b.trigger = .click :=
  eq_of_beq (Chronicle.passes_of_mem_behaviors h)

/-- Turns that end when a launched script breaks off; the behaviors after it have none. -/
inductive Snapped (id : String) :
    Session → List Behavior → List Moment → Fault → Session → Prop where
  | within {s t u : Session} {b : Behavior} {done rest : List Behavior} {l inside : List Moment}
    {e : Fault} (stints : Stints id s done l t) (due : t.due id b = true)
    (run : Chronicle.launch id b t = (.error e u, ⟨.launch id b, t⟩ :: inside))
    (scripted : ∀ k ∈ inside, k.occasion.Scripted) :
    Snapped id s (done ++ b :: rest) (l ++ ⟨.launch id b, t⟩ :: inside) e u

section
variable {t u : Session} {b : Behavior} {rest : List Behavior} {l inside : List Moment} {e : Fault}

theorem Snapped.passed (undue : s.due id b = false) (h : Snapped id s rest l e t) :
    Snapped id s (b :: rest) l e t := by
  cases h with
  | within stints due run scripted => exact .within (.passed undue stints) due run scripted

theorem Snapped.taken (due : s.due id b = true)
    (run : Chronicle.launch id b s = (.ok true t, ⟨.launch id b, s⟩ :: inside))
    (scripted : ∀ k ∈ inside, k.occasion.Scripted) (h : Snapped id t rest l e u) :
    Snapped id s (b :: rest) (⟨.launch id b, s⟩ :: inside ++ l) e u := by
  cases h with
  | within stints later broken scripted' =>
    rw [← List.append_assoc]
    exact .within (.taken due run scripted stints) later broken scripted'

/-- What is launched is of those that have turns, in their order. -/
theorem Snapped.launched {trigger : Trigger} (own : Play.startsClone trigger = false)
    {bs : List Behavior} (h : Snapped id s bs l e t) (fits : ∀ b ∈ bs, b.trigger = trigger) :
    (l.filterMap (Moment.launched? trigger)).Sublist (bs.map fun b => (id, b.id)) := by
  cases h with
  | @within u _ b _ _ _ inside _ stints due run scripted =>
    have itself : Moment.launched? trigger ⟨.launch id b, u⟩ = some (id, b.id) :=
      if_pos (fits b (List.mem_append_right _ List.mem_cons_self))
    rw [List.filterMap_append, List.filterMap_cons_some itself, Moment.unlaunched own scripted,
      List.map_append, List.map_cons]
    refine (stints.launched own fun c hc => fits c (List.mem_append_left _ hc)).append ?_
    exact (List.nil_sublist _).cons_cons _

/-- Besides those that have turns only scripts are seen. -/
theorem Snapped.others {bs : List Behavior} (h : Snapped id s bs l e t) :
    ∀ k ∈ l, k.occasion.Scripted ∨ ∃ b ∈ bs, k.occasion = .launch id b := by
  cases h with
  | @within _ _ b _ _ _ _ _ stints due run scripted =>
    intro k hk
    rcases List.mem_append.mp hk with before | here
    · refine (stints.others k before).imp_right ?_
      rintro ⟨c, hc, same⟩
      exact ⟨c, List.mem_append_left _ hc, same⟩
    rcases List.mem_cons.mp here with rfl | inside
    · exact .inr ⟨b, List.mem_append_right _ List.mem_cons_self, rfl⟩
    · exact .inl (scripted k inside)

end

/-! ## Who is clicked -/

/-- A list has one at most. -/
theorem Frontmost.unique {l : List String} {i j : String} (hi : s.Frontmost l i)
    (hj : s.Frontmost l j) : i = j := by
  obtain ⟨before, after, rfl, low, high⟩ := hi
  obtain ⟨before', after', same, low', high'⟩ := hj
  rcases List.append_eq_append_iff.mp same with ⟨between, rfl, rest⟩ | ⟨between, rfl, rest⟩
  · cases between with
    | nil => exact (List.cons.inj rest).1
    | cons k between =>
      -- the one is before the other and yet in front of it
      obtain ⟨rfl, rfl⟩ := List.cons.inj rest
      have behind := high j (List.mem_append_right _ List.mem_cons_self)
      have level := low' i (List.mem_append_right _ List.mem_cons_self)
      omega
  · cases between with
    | nil => exact (List.cons.inj rest).1.symm
    | cons k between =>
      obtain ⟨rfl, rfl⟩ := List.cons.inj rest
      have behind := high' i (List.mem_append_right _ List.mem_cons_self)
      have level := low j (List.mem_append_right _ List.mem_cons_self)
      omega

end Session

namespace Play

open Session (Frontmost Topmost)

variable {s : Session} {p : Vec Float32}

/-- The best so far gives way to whoever is at least as far in front. -/
def better (s : Session) (best : Option (Int × String)) (id : String) : Option (Int × String) :=
  match best with
  | some (depth, _) => if depth ≤ s.depthOf id then some (s.depthOf id, id) else best
  | none => some (s.depthOf id, id)

/-- The pass over the stage is one over those that are at the point. -/
theorem topmost?_eq (order : s.stage.Orderly) (p : Vec Float32) :
    topmost? s p = (s.pointedAt p).foldl (better s) none := by
  rw [topmost?, Stage.handles, List.foldl_filterMap, Session.pointedAt, List.foldl_filter]
  refine List.foldl_ext _ _ _ fun best id listed => ?_
  obtain ⟨h, found⟩ := order.mem_ids.mp listed
  obtain ⟨a, there, rfl⟩ := order.bears id h found
  have handle : s.handle? a.id = some h := found
  have depth : s.depthOf a.id = a.look.depth := by
    rw [Session.depthOf, handle, Option.bind_some, there]
  rw [Session.isPointedAt, handle, found]
  dsimp only
  rw [there]
  cases best with
  | none => rw [better, depth]
  | some e => rw [better, depth]

/-- **The pass keeps the frontmost of those that it has gone through.** -/
theorem best_spec (s : Session) (l : List String) :
    match l.foldl (better s) none with
    | none => l = []
    | some (depth, id) => depth = s.depthOf id ∧ s.Frontmost l id := by
  induction l using List.reverseRecOn with
  | nil => rfl
  | append_singleton l id ih =>
    rw [List.foldl_append]
    cases best : l.foldl (better s) none with
    | none =>
      rw [best] at ih
      subst ih
      exact ⟨rfl, [], [], rfl, nofun, nofun⟩
    | some e =>
      obtain ⟨depth, j⟩ := e
      rw [best] at ih
      obtain ⟨rfl, before, after, rfl, low, high⟩ := ih
      rw [List.foldl_cons, List.foldl_nil, better]
      by_cases front : s.depthOf j ≤ s.depthOf id
      · rw [if_pos front]
        refine ⟨rfl, before ++ j :: after, [], rfl, fun k hk => ?_, nofun⟩
        rcases List.mem_append.mp hk with hk | hk
        · exact Int.le_trans (low k hk) front
        · rcases List.mem_cons.mp hk with rfl | hk
          · exact front
          · exact Int.le_trans (Int.le_of_lt (high k hk)) front
      · rw [if_neg front]
        refine ⟨rfl, before, after ++ [id], by simp only [List.append_assoc, List.cons_append],
          low, fun k hk => ?_⟩
        rcases List.mem_append.mp hk with hk | hk
        · exact high k hk
        · obtain rfl := List.mem_singleton.mp hk
          exact Int.lt_of_not_ge front

/-- Nobody is clicked if nobody is at the point. -/
theorem topmost?_of_nil (order : s.stage.Orderly) (empty : s.pointedAt p = []) :
    topmost? s p = none := by
  rw [topmost?_eq order, empty]
  rfl

/-- Otherwise the topmost one is. -/
theorem topmost?_of_ne_nil (order : s.stage.Orderly) (some : s.pointedAt p ≠ []) :
    ∃ depth id, topmost? s p = Option.some (depth, id) ∧ s.Topmost p id := by
  have spec := best_spec s (s.pointedAt p)
  rw [← topmost?_eq order] at spec
  cases best : topmost? s p with
  | none =>
    rw [best] at spec
    exact absurd spec some
  | some e =>
    rw [best] at spec
    exact ⟨e.1, e.2, rfl, spec.2⟩

end Play

/-! ## Turns that break off -/

namespace Chronicle

open Session (Stints Snapped)

variable {s : Session} {id : String}

/-- A launch that breaks off does so in the script of a behavior that was due. -/
theorem launch_of_error (hs : s.Ledger false []) {b : Behavior} (live : s.isLive id = true)
    {e : Fault} {t : Session} (broken : (launch id b s).1 = .error e t) :
    s.due id b = true ∧ ∃ inside, launch id b s = (.error e t, ⟨.launch id b, s⟩ :: inside) ∧
      ∀ k ∈ inside, k.occasion.Scripted := by
  cases due : s.due id b with
  | false =>
    rw [launch_of_not_due hs live due] at broken
    cases broken
  | true =>
    have told : Told Occasion.Scripted (slice makeClone (Task.new id b)) _ :=
      told_slice (fun _ h => h) (told_makeClone fun _ h => h) _
    rw [Session.due, live, Bool.and_true, ← isActive_eq hs] at due
    have accepted : ¬(!s.running || s.scheduler.isActive id b.id) = true := by
      rw [Bool.or_eq_true, not_or, Bool.not_eq_true', Bool.not_eq_false, Bool.not_eq_true]
      rwa [Bool.and_eq_true, Bool.not_eq_true'] at due
    have launched : (seen (.launch id b) (Play.schedule fun q => q.activate id b.id) s).1
        = .ok () { s with scheduler := s.scheduler.activate id b.id } := rfl
    rw [launch, launchWith, get_bind, if_neg accepted, bind_of_ok launched] at broken ⊢
    refine ⟨rfl, ?_⟩
    cases first : (slice makeClone (Task.new id b)
        { s with scheduler := s.scheduler.activate id b.id }).1 with
    | ok left u =>
      rw [bind_of_ok first] at broken
      cases left <;> cases broken
    | error e' u =>
      rw [bind_of_error first] at broken ⊢
      obtain ⟨rfl, rfl⟩ := EStateM.Result.error.inj broken
      exact ⟨_, rfl, (told.trace _ trivial).kind⟩

/-- The first turn, and then the others. -/
theorem launchEach_cons (s : Session) (id : String) (b : Behavior) (rest : List Behavior) :
    launchEach id (b :: rest) s =
      ((if s.isLive id then launch id b else pure false) >>= fun launched => do
        return (if launched then 1 else 0) + (← launchEach id rest)) s := by
  rw [launchEach]
  show (if s.isLive id then (_ : Chronicle Nat) else _) s = _
  cases s.isLive id <;> rfl

/-- If turns break off after the first of them, then the others do. -/
theorem launchEach_cons_of_ok {b : Behavior} {rest : List Behavior} {launched : Bool}
    {u : Session} {l : List Moment}
    (turn : (if s.isLive id then launch id b else pure false) s = (.ok launched u, l)) {e : Fault}
    {t : Session} (broken : (launchEach id (b :: rest) s).1 = .error e t) :
    (launchEach id rest u).1 = .error e t ∧
      (launchEach id (b :: rest) s).2 = l ++ (launchEach id rest u).2 := by
  rw [launchEach_cons, bind_of_ok (congrArg Prod.fst turn), turn] at broken ⊢
  cases others : (launchEach id rest u).1 with
  | ok n v =>
    rw [bind_of_ok others] at broken
    cases broken
  | error e' v =>
    rw [bind_of_error others] at broken ⊢
    exact ⟨broken, rfl⟩

/-- **Turns that do not end are snapped.** -/
theorem snapped_launchEach (bs : List Behavior) (hs : s.Ready) {e : Fault} {t : Session}
    (broken : (launchEach id bs s).1 = .error e t) :
    Snapped id s bs (launchEach id bs s).2 e t := by
  induction bs generalizing s with
  | nil => cases broken
  | cons b rest ih =>
    cases due : s.due id b with
    | false =>
      have undue : (if s.isLive id then launch id b else pure false) s = (.ok false s, []) := by
        cases live : s.isLive id with
        | false => rfl
        | true => exact launch_of_not_due hs.ledger live due
      obtain ⟨others, moments⟩ := launchEach_cons_of_ok undue broken
      rw [moments]
      exact (ih hs others).passed due
    | true =>
      have live : s.isLive id = true := by
        rw [Session.due, Bool.and_eq_true, Bool.and_eq_true] at due
        exact due.1.2
      have turn : (if s.isLive id then launch id b else pure false) s = launch id b s := by
        rw [live, if_pos rfl]
      cases first : (launch id b s).1 with
      | ok launched u =>
        obtain ⟨rfl, inside, seen, scripted⟩ := yields_launch_of_due hs.ledger due _ _ first
        have run : launch id b s = (.ok true u, ⟨.launch id b, s⟩ :: inside) := Prod.ext first seen
        obtain ⟨others, moments⟩ := launchEach_cons_of_ok (turn.trans run) broken
        rw [moments]
        exact (ih (hs.launched run) others).taken due run scripted
      | error e' u =>
        obtain ⟨-, inside, run, scripted⟩ := launch_of_error hs.ledger live first
        rw [launchEach_cons, bind_of_error ((congrArg Prod.fst turn).trans first), turn, run]
          at broken ⊢
        obtain ⟨rfl, rfl⟩ := EStateM.Result.error.inj broken
        exact .within .nil due run scripted

/-! ## Clicks -/

variable {p : Vec Float32}

/-- A step of which the answer is discarded, and another answer. -/
theorem discard_of_ok {α β : Type} {c : Chronicle α} {a : α} {t : Session} (b : β)
    (h : (c s).1 = .ok a t) : (do discard c; return b : Chronicle β) s = (.ok b t, (c s).2) := by
  have first : (discard c : Chronicle Unit) s = _ := bind_of_ok (f := fun _ => pure ()) h
  rw [bind_of_ok (congrArg Prod.fst first), first]
  exact Prod.ext rfl (by rw [List.append_assoc]; exact List.append_nil _)

theorem discard_of_error {α β : Type} {c : Chronicle α} {e : Fault} {t : Session} (b : β)
    (h : (c s).1 = .error e t) :
    (do discard c; return b : Chronicle β) s = (.error e t, (c s).2) := by
  have first : (discard c : Chronicle Unit) s = _ := bind_of_error (f := fun _ => pure ()) h
  rw [bind_of_error (congrArg Prod.fst first), first]

/-- What a click comes to once the button has been pressed. -/
theorem pointerDown_of_running (running : s.running = true) :
    pointerDown p s =
      (match Play.topmost? (s.pressed p) p with
        | none => (pure none : Chronicle (Option String))
        | some (_, id) => do
          discard (launchEach id (s.clicks id))
          return some id) (s.pressed p) := by
  have goes : pointerDown p s =
      (if !s.running then pure none
        else
          match Play.topmost? (s.pressed p) p with
          | none => (pure none : Chronicle (Option String))
          | some (_, id) => do
            discard (launchEach id (s.clicks id))
            return some id) (s.pressed p) := rfl
  rw [goes, running, if_neg (by decide)]

/-- A click where nobody is only presses the button. -/
theorem pointerDown_of_nil (order : s.stage.Orderly) (running : s.running = true)
    (empty : s.pointedAt p = []) : pointerDown p s = (.ok none (s.pressed p), []) := by
  have nobody : Play.topmost? (s.pressed p) p = none := Play.topmost?_of_nil order empty
  rw [pointerDown_of_running running, nobody]
  rfl

/-- A click on somebody has the turns of the topmost one follow. -/
theorem pointerDown_of_ne_nil (order : s.stage.Orderly) (running : s.running = true)
    (some : s.pointedAt p ≠ []) :
    ∃ id, s.Topmost p id ∧ pointerDown p s =
      (do discard (launchEach id (s.clicks id)); return Option.some id : Chronicle _)
        (s.pressed p) := by
  obtain ⟨depth, id, best, topmost⟩ := Play.topmost?_of_ne_nil order some
  have best : Play.topmost? (s.pressed p) p = Option.some (depth, id) := best
  refine ⟨id, topmost, ?_⟩
  rw [pointerDown_of_running running, best]

end Chronicle

namespace Session

variable {s : Session} {p : Vec Float32}

/-- What can be said of a click. -/
structure Clicking (s : Session) (p : Vec Float32) : Prop where
  /-- The click that is watched ends as it does. -/
  same : (Chronicle.pointerDown p s).1 = Play.pointerDown p s
  /-- Somebody is the topmost one, unless nobody is at the point. -/
  topmost : s.pointedAt p ≠ [] → ∃ id, s.Topmost p id
  /-- If nobody is, the button is pressed and nothing else happens. -/
  missed : s.pointedAt p = [] → Chronicle.pointerDown p s = (.ok none (s.pressed p), [])
  /-- If somebody is, the behaviors of the topmost one have their turns; the click answers its id
      unless a script that is launched breaks off. -/
  turns : ∀ id, s.Topmost p id →
    (∃ t, Play.pointerDown p s = .ok (some id) t ∧
      Stints id (s.pressed p) (s.clicks id) (Chronicle.pointerDown p s).2 t) ∨
    ∃ e t, Play.pointerDown p s = .error e t ∧
      Snapped id (s.pressed p) (s.clicks id) (Chronicle.pointerDown p s).2 e t
  /-- Nobody is answered exactly if nobody is at the point. -/
  nobody : (∃ t, Play.pointerDown p s = .ok none t) ↔ s.pointedAt p = []
  /-- Who is answered is the topmost one. -/
  somebody : ∀ answer t, Play.pointerDown p s = .ok answer t →
    ∀ id, answer = some id ↔ s.Topmost p id
  /-- Behaviors for clicks are launched in the order of the catalog of the topmost one. -/
  order : ∀ id, s.Topmost p id →
    ((Chronicle.pointerDown p s).2.filterMap (Moment.launched? .click)).Sublist
      ((s.clicks id).map fun b => (id, b.id))
  /-- None is launched twice. -/
  once : ((Chronicle.pointerDown p s).2.filterMap (Moment.launched? .click)).Nodup
  /-- Nothing else is launched but start scripts of clones. -/
  others : ∀ k ∈ (Chronicle.pointerDown p s).2, ∀ id b, k.occasion = .launch id b →
    Play.startsClone b.trigger = true ∨ b.trigger = .click ∧ s.Topmost p id

theorem told_click (p : Vec Float32) :
    Chronicle.Told (fun _ => True) (Chronicle.pointerDown p) (Play.pointerDown p) :=
  Chronicle.told_pointerDown (fun _ _ => trivial) (fun _ _ _ => trivial) p

/-- Only behaviors for clicks of one entity are launched, in order and none of them twice. -/
theorem clicks_once (catalogued : s.Catalogued) {id : String} {l : List Moment}
    (launched : (l.filterMap (Moment.launched? .click)).Sublist
      ((s.clicks id).map fun b => (id, b.id))) :
    (l.filterMap (Moment.launched? .click)).Nodup := by
  refine List.Nodup.sublist launched (List.Nodup.of_map Prod.snd ?_)
  rw [List.map_map]
  exact catalogued.nodup id _

theorem Ready.pressed (hs : s.Ready) (p : Vec Float32) : (s.pressed p).Ready where
  ledger := hs.ledger.deed (.aside ⟨rfl, rfl⟩)
  registry := ⟨hs.registry.stage, hs.registry.catalogs, hs.registry.locals⟩
  catalogued := hs.catalogued.same rfl rfl

/-- A click where nobody is. -/
theorem Ready.clicking_of_nil (hs : s.Ready) (running : s.running = true)
    (empty : s.pointedAt p = []) : s.Clicking p := by
  have missed := Chronicle.pointerDown_of_nil hs.registry.stage running empty
  have same := (told_click p).same s
  have nobody : ∀ id, ¬s.Topmost p id := by
    rintro id ⟨before, after, split, -⟩
    rw [empty] at split
    exact List.append_ne_nil_of_right_ne_nil _ (List.cons_ne_nil _ _) split.symm
  have ended : Play.pointerDown p s = .ok none (s.pressed p) := by rw [← same, missed]
  exact
    { same := same
      topmost := fun some => absurd empty some
      missed := fun _ => missed
      turns := fun id h => (nobody id h).elim
      nobody := ⟨fun _ => empty, fun _ => ⟨_, ended⟩⟩
      somebody := by
        intro answer t answered id
        rw [ended] at answered
        obtain ⟨rfl, -⟩ := EStateM.Result.ok.inj answered
        exact ⟨nofun, fun h => (nobody id h).elim⟩
      order := fun id h => (nobody id h).elim
      once := by
        rw [missed]
        exact List.nodup_nil
      others := by
        rw [missed]
        exact fun k hk => (List.not_mem_nil hk).elim }

/-- The behaviors of whoever is clicked have their turns, all of them or up to where one breaks
    off. -/
theorem Ready.turns (hs : s.Ready) {top : String}
    (goes : Chronicle.pointerDown p s =
      (do discard (Chronicle.launchEach top (s.clicks top)); return some top : Chronicle _)
        (s.pressed p)) :
    (∃ t, Play.pointerDown p s = .ok (some top) t ∧
      Stints top (s.pressed p) (s.clicks top) (Chronicle.pointerDown p s).2 t) ∨
    ∃ e t, Play.pointerDown p s = .error e t ∧
      Snapped top (s.pressed p) (s.clicks top) (Chronicle.pointerDown p s).2 e t := by
  rw [← (told_click p).same s, goes]
  cases ended : (Chronicle.launchEach top (s.clicks top) (s.pressed p)).1 with
  | ok n t =>
    rw [Chronicle.discard_of_ok _ ended]
    exact .inl ⟨t, rfl, Chronicle.yields_launchEach top _ (hs.pressed p) n t ended⟩
  | error e t =>
    rw [Chronicle.discard_of_error _ ended]
    exact .inr ⟨e, t, rfl, Chronicle.snapped_launchEach _ (hs.pressed p) ended⟩

/-- A click on somebody. -/
theorem Ready.clicking_of_ne_nil (hs : s.Ready) (running : s.running = true)
    (some : s.pointedAt p ≠ []) : s.Clicking p := by
  obtain ⟨top, topmost, goes⟩ := Chronicle.pointerDown_of_ne_nil hs.registry.stage running some
  have turns := hs.turns goes
  have order : ((Chronicle.pointerDown p s).2.filterMap (Moment.launched? .click)).Sublist
      ((s.clicks top).map fun b => (top, b.id)) := by
    rcases turns with ⟨t, -, stints⟩ | ⟨e, t, -, snapped⟩
    · exact stints.launched rfl fun _ => click_of_mem_clicks
    · exact snapped.launched rfl fun _ => click_of_mem_clicks
  have others : ∀ k ∈ (Chronicle.pointerDown p s).2,
      k.occasion.Scripted ∨ ∃ b ∈ s.clicks top, k.occasion = .launch top b := by
    rcases turns with ⟨t, -, stints⟩ | ⟨e, t, -, snapped⟩
    · exact stints.others
    · exact snapped.others
  have only : ∀ id, s.Topmost p id → id = top := fun id h => h.unique topmost
  exact
    { same := (told_click p).same s
      topmost := fun _ => ⟨top, topmost⟩
      missed := fun empty => absurd empty some
      turns := fun id h => only id h ▸ turns
      nobody := by
        refine ⟨?_, fun empty => absurd empty some⟩
        rintro ⟨t, answered⟩
        rcases turns with ⟨t', answered', -⟩ | ⟨e, t', broken, -⟩
        · cases answered.symm.trans answered'
        · cases answered.symm.trans broken
      somebody := by
        intro answer t answered id
        rcases turns with ⟨t', answered', -⟩ | ⟨e, t', broken, -⟩
        · obtain ⟨rfl, -⟩ := EStateM.Result.ok.inj (answered.symm.trans answered')
          rw [Option.some.injEq]
          exact ⟨fun h => h ▸ topmost, fun h => (only id h).symm⟩
        · cases answered.symm.trans broken
      order := fun id h => only id h ▸ order
      once := clicks_once hs.catalogued order
      others := by
        intro k hk id b launched
        rcases others k hk with scripted | ⟨c, hc, same⟩
        · rw [launched] at scripted
          exact .inl scripted
        · obtain ⟨rfl, rfl⟩ := Occasion.launch.inj (launched.symm.trans same)
          exact .inr ⟨click_of_mem_clicks hc, topmost⟩ }

/-- **Clicks go to the topmost entity only**, between any two calls while the session is running. -/
theorem clicking_of_reachable (hs : Reachable s) (running : s.running = true) (p : Vec Float32) :
    s.Clicking p := by
  by_cases empty : s.pointedAt p = []
  · exact (ready_of_reachable hs).clicking_of_nil running empty
  · exact (ready_of_reachable hs).clicking_of_ne_nil running empty

/-- Four are at one place: two at one depth, one behind them, and in front of all one that is hidden.
    The later of the two deletes itself when it is clicked, and has another behavior for clicks. -/
def pile : Session :=
  (fresh .usual (Generator.ofSeed 0) 5).after
    [.register { Spawn.new "a" with depth := 1 }, .register { Spawn.new "b" with depth := 1 },
      .register (Spawn.new "c"), .register { Spawn.new "d" with depth := 2, visible := false },
      .addBehaviors "b" ⟨[⟨0, .click, [.action .deleteSelf]⟩, ⟨1, .click, []⟩], [], 2⟩,
      .script .start]

theorem pointedAt_pile (cosine : Float32.cos (-0) = 1) (sine : Float32.sin (-0) = -0) :
    pile.pointedAt ⟨240, 180⟩ = ["a", "b", "c"] := by
  have heading : Vec.ofAngle (-0 : Float32) = ⟨1, -0⟩ := congrArg₂ Vec.mk cosine sine
  have inside : plainBox.contains ⟨240, 180⟩ = true := by
    rw [plainBox, Stage.drawnBox, heading]
    decide +kernel
  have hit : pile.pointedAt ⟨240, 180⟩ = ["a", "b", "c", "d"].filter fun id =>
      id != "d" && plainBox.contains ⟨240, 180⟩ := rfl
  rw [hit, inside]
  decide

/-- Of those who are seen there, two are in front, and the later one of them is clicked.  It has one of
    its behaviors launched, since it is gone afterwards. -/
theorem clicking_pile : Reachable pile ∧ pile.running = true ∧ pile.Clicking ⟨240, 180⟩ ∧
    (Float32.cos (-0) = 1 ∧ Float32.sin (-0) = -0 →
      pile.Topmost ⟨240, 180⟩ "b" ∧
        (Chronicle.pointerDown ⟨240, 180⟩ pile).2.filterMap (Moment.launched? .click)
          = [("b", 0)]) := by
  have reachable : Reachable pile := (Reachable.fresh _ _ _).after _ (by decide +kernel)
  have running : pile.running = true := by decide +kernel
  refine ⟨reachable, running, clicking_of_reachable reachable running _, ?_⟩
  rintro ⟨cosine, sine⟩
  have topmost : pile.Topmost ⟨240, 180⟩ "b" := by
    refine ⟨["a"], ["c"], pointedAt_pile cosine sine, ?_⟩
    decide +kernel
  refine ⟨topmost, ?_⟩
  have order : pile.stage.Orderly := (ready_of_reachable reachable).registry.stage
  obtain ⟨id, same, goes⟩ := Chronicle.pointerDown_of_ne_nil order running
    (pointedAt_pile cosine sine ▸ List.cons_ne_nil _ _)
  obtain rfl := same.unique topmost
  rw [goes]
  decide +kernel

end Session

end BlockStage
