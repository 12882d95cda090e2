/-
  Deliveries: how one message reaches its listeners.

  1. **Specification (`Delivery.Proper`)** — a delivery comes to all entities that listen when it
     begins, in the order of registration.  At its visit each entity has the behaviors that wait for
     the message take turns, in the order of its catalog, and they are the ones that it had when the
     delivery began unless someone else bears the id meanwhile.  Every behavior has one turn at most,
     and is launched at its turn exactly if its entity is on stage and not stopped then, and no
     earlier instance of it is suspended.

  2. **Bookkeeping (`Moment.Handled`)** — what the moments of a delivery tell is read off them part
     by part: of a behavior's turn, of an entity's visit, of the visits of all listeners.

  3. **The crux** — a script that is launched is seen at work and making clones only, so between two
     turns nothing else is launched for a message (`yields_launch`).
-/
import BlockStage.Proofs.Chronicle.Catalogue
import BlockStage.Proofs.Chronicle.Mail
import BlockStage.Proofs.Chronicle.Yields
import BlockStage.Proofs.Session.Settled

namespace BlockStage

open Session (Trace)

/-! ## Moments of a delivery -/

namespace Moment

/-- The entity that a delivery comes to. -/
def visited? : Moment → Option String
  | ⟨.visit id, _⟩ => some id
  | _ => none

/-- The behavior whose turn it is. -/
def turned? : Moment → Option (String × Behavior)
  | ⟨.turn id b, _⟩ => some (id, b)
  | _ => none

/-- The behavior whose turn it is, if its entity takes part and no instance of it is suspended. -/
def due? : Moment → Option (String × Behavior)
  | ⟨.turn id b, s⟩ =>
    if s.isLive id && !s.waitingKeys.contains (id, b.id) then some (id, b) else none
  | _ => none

/-- The behavior that is launched, if it waits for messages. -/
def handled? : Moment → Option (String × Behavior)
  | ⟨.launch id b, _⟩ =>
    match b.trigger with
    | .message _ => some (id, b)
    | _ => none
  | _ => none

/-- The behaviors that wait for a message when its delivery comes to their entity. -/
def waits (message : String) : Moment → List (String × Behavior)
  | ⟨.visit id, s⟩ => (s.behaviors id fun t => t == .message message).map fun b => (id, b)
  | _ => []

end Moment

/-! ## The specification -/

/-- The delivery of a message: the sessions when it begins and when it is over, the moments in
    between, and the number of behaviors launched. -/
structure Delivery where
  message : String
  start : Session
  body : List Moment
  finish : Session
  handlers : Nat

namespace Delivery

/-- All moments of a delivery. -/
def moments (d : Delivery) : List Moment :=
  ⟨.deliver d.message, d.start⟩ :: (d.body ++ [⟨.delivered d.message d.handlers, d.finish⟩])

/-- Who has a behavior for the message and takes part when its delivery begins. -/
def recipients (d : Delivery) : List String :=
  d.start.stage.ids.filter fun id =>
    d.start.isLive id && !(d.start.behaviors id fun t => t == .message d.message).isEmpty

/-- What can be said of the delivery of a message. -/
structure Proper (d : Delivery) : Prop where
  /-- The delivery comes to all that listen when it begins, in the order of registration. -/
  visits : d.body.filterMap Moment.visited? = d.start.listeners .message
  /-- Among them are all that have a behavior for the message and take part. -/
  recipients : List.Sublist d.recipients (d.start.listeners .message)
  /-- At each visit the behaviors of the entity that wait for the message take turns. -/
  turns : d.body.filterMap Moment.turned? = d.body.flatMap (Moment.waits d.message)
  /-- They are those that it had in the beginning, if the id is still borne by the same entity. -/
  lasting : ∀ k ∈ d.body, ∀ id, k.occasion = .visit id →
    k.session.handle? id = d.start.handle? id →
    (k.session.behaviors id fun t => t == .message d.message)
      = d.start.behaviors id fun t => t == .message d.message
  /-- No behavior has two turns. -/
  once : ((d.body.filterMap Moment.turned?).map fun e => (e.1, e.2.id)).Nodup
  /-- Just those behaviors are launched for a message that are due at their turns. -/
  launches : d.body.filterMap Moment.handled? = d.body.filterMap Moment.due?
  /-- They are counted. -/
  handlers : (d.body.filterMap Moment.due?).length = d.handlers
  /-- No other delivery begins or ends meanwhile. -/
  alone : d.body.filterMap Moment.begun? = [] ∧ d.body.filterMap Moment.delivered? = []

end Delivery

/-! ## Bookkeeping -/

/-- What the moments of a part of a delivery tell: visits, the behaviors that wait then, turns, and
    the number of launches, which are those that were due. -/
structure Moment.Handled (message : String) (l : List Moment) (visits : List String)
    (waits turns : List (String × Behavior)) (handlers : Nat) : Prop where
  visits : l.filterMap Moment.visited? = visits
  waits : l.flatMap (Moment.waits message) = waits
  turns : l.filterMap Moment.turned? = turns
  launches : l.filterMap Moment.handled? = l.filterMap Moment.due?
  handlers : (l.filterMap Moment.due?).length = handlers
  begun : l.filterMap Moment.begun? = []
  delivered : l.filterMap Moment.delivered? = []

namespace Moment.Handled

variable {message : String} {l k : List Moment} {v v' : List String}
  {w w' x x' : List (String × Behavior)} {m n : Nat}

theorem append (h : Handled message l v w x m) (h' : Handled message k v' w' x' n) :
    Handled message (l ++ k) (v ++ v') (w ++ w') (x ++ x') (m + n) where
  visits := by rw [List.filterMap_append, h.visits, h'.visits]
  waits := by rw [List.flatMap_append, h.waits, h'.waits]
  turns := by rw [List.filterMap_append, h.turns, h'.turns]
  launches := by rw [List.filterMap_append, List.filterMap_append, h.launches, h'.launches]
  handlers := by rw [List.filterMap_append, List.length_append, h.handlers, h'.handlers]
  begun := by rw [List.filterMap_append, h.begun, h'.begun, List.append_nil]
  delivered := by rw [List.filterMap_append, h.delivered, h'.delivered, List.append_nil]

theorem nil : Handled message [] [] [] [] 0 := ⟨rfl, rfl, rfl, rfl, rfl, rfl, rfl⟩

/-- What is seen of scripts tells nothing of the delivery. -/
theorem scripted (h : ∀ k ∈ l, k.occasion.Scripted) : Handled message l [] [] [] 0 := by
  have silent : ∀ k : Moment, k.occasion.Scripted → Handled message [k] [] [] [] 0 := by
    rintro ⟨o, s⟩ ho
    cases o with
    | launch id b =>
      -- what is launched are start scripts of clones
      have starts : Play.startsClone b.trigger = true := ho
      have unhandled : Moment.handled? ⟨.launch id b, s⟩ = none := by
        rw [Moment.handled?]
        split
        · rename_i waits
          rw [waits] at starts
          cases starts
        · rfl
      exact ⟨rfl, rfl, rfl, List.filterMap_cons_none unhandled, rfl, rfl, rfl⟩
    | work entity behavior w => exact ⟨rfl, rfl, rfl, rfl, rfl, rfl, rfl⟩
    | clone source => exact ⟨rfl, rfl, rfl, rfl, rfl, rfl, rfl⟩
    | post message => exact ⟨rfl, rfl, rfl, rfl, rfl, rfl, rfl⟩
    | _ => exact ho.elim
  induction l with
  | nil => exact nil
  | cons k l ih =>
    exact (silent k (h k List.mem_cons_self)).append (ih fun j hj => h j (List.mem_cons_of_mem k hj))

/-- A visit at which behaviors are found. -/
theorem visit (id : String) (s : Session) :
    Handled message [⟨.visit id, s⟩] [id]
      ((s.behaviors id fun t => t == .message message).map fun b => (id, b)) [] 0 :=
  ⟨rfl, List.append_nil _, rfl, rfl, rfl, rfl, rfl⟩

/-- A visit, and the turns of those that are found at it, up to the first that is left out. -/
theorem visited {id : String} {s : Session} {done left : List Behavior}
    (found : (s.behaviors id fun t => t == .message message) = done ++ left)
    (here : Handled message l [] [] (done.map fun b => (id, b)) m) :
    Handled message (⟨.visit id, s⟩ :: l) [id]
      ((done.map fun b => (id, b)) ++ left.map fun b => (id, b)) (done.map fun b => (id, b)) m := by
  have all := (show Handled message [_] _ _ _ _ from visit id s).append here
  simp only [found, List.map_append, List.append_nil, List.nil_append, Nat.zero_add] at all
  exact all

/-- A turn at which nothing is launched. -/
theorem passed {id : String} {b : Behavior} {s : Session} (h : Moment.due? ⟨.turn id b, s⟩ = none) :
    Handled message [⟨.turn id b, s⟩] [] [] [(id, b)] 0 := by
  have undue : [(⟨.turn id b, s⟩ : Moment)].filterMap Moment.due? = [] :=
    List.filterMap_cons_none h
  exact ⟨rfl, rfl, rfl, undue.symm, congrArg List.length undue, rfl, rfl⟩

/-- A turn at which the behavior is launched. -/
theorem taken {id : String} {b : Behavior} {s t : Session} {m : String} (hb : b.trigger = .message m)
    (h : Moment.due? ⟨.turn id b, s⟩ = some (id, b)) :
    Handled message [⟨.turn id b, s⟩, ⟨.launch id b, t⟩] [] [] [(id, b)] 1 := by
  have due : [⟨.turn id b, s⟩, ⟨.launch id b, t⟩].filterMap Moment.due? = [(id, b)] :=
    List.filterMap_cons_some h
  have handled : Moment.handled? ⟨.launch id b, t⟩ = some (id, b) := by
    rw [Moment.handled?, hb]
  have launched : [⟨.turn id b, s⟩, ⟨.launch id b, t⟩].filterMap Moment.handled? = [(id, b)] :=
    List.filterMap_cons_some handled
  exact ⟨rfl, rfl, rfl, launched.trans due.symm, congrArg List.length due, rfl, rfl⟩

end Moment.Handled

theorem Occasion.Scripted.delivering {o : Occasion} (h : o.Scripted) : o.Delivering := by
  cases o with
  | launch id b =>
    intro loops
    have starts : Play.startsClone b.trigger = true := h
    rw [loops] at starts
    cases starts
  | work | clone | post => trivial
  | _ => exact h.elim

namespace Chronicle

open Session (Ledger)

variable {s : Session} {message : String}

/-! ## Launching -/

/-- Between calls, and between launches, an instance is under way exactly if it is suspended. -/
theorem isActive_eq (hs : s.Ledger false []) (id : String) (b : Nat) :
    s.scheduler.isActive id b = s.waitingKeys.contains (id, b) := by
  rw [Scheduler.isActive, Bool.eq_iff_iff, List.contains_iff_mem, List.contains_iff_mem]
  exact hs.settled.active _

/-- **A launch is seen, and then only scripts**, unless an earlier instance is suspended. -/
theorem yields_launch (hs : s.Ledger false []) (running : s.running = true) (id : String)
    (b : Behavior) :
    Yields (launch id b) s fun launched t l =>
      t.Ledger false [] ∧ launched = !s.waitingKeys.contains (id, b.id) ∧
        if launched then ∃ rest, l = ⟨.launch id b, s⟩ :: rest ∧ ∀ k ∈ rest, k.occasion.Scripted
        else l = [] := by
  have scripted : ∀ o : Occasion, o.Scripted → o.Scripted := fun _ h => h
  have restored := Session.restores_launchWith Session.restores_makeClone [] id b s hs
  have told : Told (fun _ => True) (launch id b) (Play.launch id b) :=
    told_launch (fun _ _ => trivial) trivial
  refine ((Yields.of_told told restored).mono fun _ _ _ h => h.1).and ?_
  rw [launch, launchWith]
  refine .look ?_
  rw [running, isActive_eq hs, Bool.not_true, Bool.false_or]
  cases s.waitingKeys.contains (id, b.id) with
  | true => exact .pure ⟨rfl, rfl⟩
  | false =>
    -- after the launch has been noted there is only the slice to be seen
    have slices := Yields.of_told (told_slice scripted (told_makeClone scripted) (Task.new id b))
      (Play.After.any _ { s with scheduler := s.scheduler.activate id b.id })
    refine Yields.bind (Q := fun _ t l =>
      t = { s with scheduler := s.scheduler.activate id b.id } ∧ l = [⟨.launch id b, s⟩])
      (.seen ⟨rfl, rfl⟩) ?_
    rintro _ _ _ ⟨rfl, rfl⟩
    refine slices.bind ?_
    rintro left t l ⟨-, trace⟩
    cases left with
    | some task => exact .silent ⟨rfl, l, by rw [List.append_nil]; rfl, trace.kind⟩
    | none => exact .silent ⟨rfl, l, by rw [List.append_nil]; rfl, trace.kind⟩

/-! ## Turns -/

/-- What is found for a message waits for it. -/
theorem fits_of_behaviors {id : String} :
    ∀ b ∈ s.behaviors id (fun t => t == .message message), b.trigger = .message message :=
  fun _ hb => eq_of_beq (passes_of_mem_behaviors hb)

/-- The turn of a behavior: it is launched if its entity takes part and no instance is suspended. -/
theorem yields_turn (hs : s.Ledger false []) (running : s.running = true) (id : String)
    {b : Behavior} (waits : b.trigger = .message message) :
    Yields (if s.isLive id then launch id b else pure false) s fun launched t l =>
      t.Ledger false [] ∧ Moment.Handled message (⟨.turn id b, s⟩ :: l) [] [] [(id, b)]
        (if launched then 1 else 0) := by
  cases live : s.isLive id with
  | false =>
    have undue : Moment.due? ⟨.turn id b, s⟩ = none := by
      rw [Moment.due?, live]
      rfl
    exact .pure ⟨hs, .passed undue⟩
  | true =>
    refine (yields_launch hs running id b).mono ?_
    rintro launched u first ⟨hu, free, seen⟩
    refine ⟨hu, ?_⟩
    cases launched with
    | false =>
      have undue : Moment.due? ⟨.turn id b, s⟩ = none := by
        rw [Moment.due?, live, ← free]
        rfl
      obtain rfl : first = [] := seen
      exact .passed undue
    | true =>
      have due : Moment.due? ⟨.turn id b, s⟩ = some (id, b) := by
        rw [Moment.due?, live, ← free]
        rfl
      obtain ⟨inside, rfl, scripted⟩ := seen
      exact (Moment.Handled.taken (t := s) waits due).append (.scripted scripted)

/-- The turns of the behaviors of one entity.  Nothing is answered if the session has stopped before
    the last of them, and then those that are left have no turn. -/
theorem yields_handleEach (id : String) (l : List Behavior)
    (hl : ∀ b ∈ l, b.trigger = .message message) (handlers : Nat) (hs : s.Ledger false []) :
    Yields (handleEach id l handlers) s fun handled t log =>
      t.Ledger false [] ∧ ∃ done left more, l = done ++ left ∧
        Moment.Handled message log [] [] (done.map fun b => (id, b)) more ∧
        handled = (if left.isEmpty then some (handlers + more) else none) ∧
        (left ≠ [] → t.running = false) := by
  induction l generalizing s handlers with
  | nil => exact .pure ⟨hs, [], [], 0, rfl, .nil, rfl, fun h => absurd rfl h⟩
  | cons b rest ih =>
    obtain ⟨waits, others⟩ := List.forall_mem_cons.mp hl
    refine .look ?_
    cases running : s.running with
    | false => exact .pure ⟨hs, [], b :: rest, 0, rfl, .nil, rfl, fun _ => running⟩
    | true =>
      refine .marked ((yields_turn hs running id waits).bind_ite ?_)
      rintro launched u first ⟨hu, turn⟩
      refine (ih others (if launched then handlers + 1 else handlers) hu).mono ?_
      rintro handled t log ⟨ht, done, left, more, rfl, turns, answer, idle⟩
      refine ⟨ht, b :: done, left, (if launched then 1 else 0) + more, rfl, turn.append turns, ?_,
        idle⟩
      have sum : handlers + ((if launched then 1 else 0) + more)
          = (if launched then handlers + 1 else handlers) + more := by
        cases launched <;> simp only [if_true, if_false, Bool.false_eq_true] <;> omega
      rw [sum]
      exact answer

/-- The visits of a delivery. -/
theorem yields_handleMessage (message : String) (ids : List String) (handlers : Nat)
    (hs : s.Ledger false []) :
    Yields (handleMessage message ids handlers) s fun handled t log =>
      t.Ledger false [] ∧ (handled = none → t.running = false) ∧
        ∀ n, handled = some n → ∃ more turns, n = handlers + more ∧
          Moment.Handled message log ids turns turns more := by
  induction ids generalizing s handlers with
  | nil =>
    refine .pure ⟨hs, fun h => (by cases h), fun n h => ⟨0, [], ?_, .nil⟩⟩
    exact (Option.some.inj h).symm
  | cons id rest ih =>
    refine .marked (.ask ?_)
    refine (yields_handleEach id _ fits_of_behaviors handlers hs).bind ?_
    rintro _ t first ⟨ht, done, left, more, found, here, rfl, idle⟩
    cases left with
    | cons b left => exact .pure ⟨ht, fun _ => idle (List.cons_ne_nil b left), fun n h => (by cases h)⟩
    | nil =>
      refine (ih _ ht).mono fun handled u log h => ⟨h.1, h.2.1, fun n hn => ?_⟩
      obtain ⟨others, later, count, there⟩ := h.2.2 n hn
      have visit := Moment.Handled.visited found here
      rw [List.map_nil, List.append_nil] at visit
      refine ⟨more + others, _, ?_, visit.append there⟩
      rw [← Nat.add_assoc]
      exact count

/-- A delivery that has been seen to its end is reported, and then the others follow. -/
theorem yields_reported {t : Session} {m : String} {handlers : Nat} {pending : List String}
    {S : Unit → Session → List Moment → Prop}
    (later : Yields (deliverMessages pending) (t.emit (.messageDelivered m handlers))
      fun a u log => S a u (⟨.delivered m handlers, t⟩ :: log)) :
    Yields (do
      seen (.delivered m handlers) (Play.change fun s => s.emit (.messageDelivered m handlers))
      deliverMessages pending) t S := by
  refine Yields.bind (Q := fun _ u k => u = t.emit (.messageDelivered m handlers) ∧
    k = [⟨.delivered m handlers, t⟩]) (.seen ⟨rfl, rfl⟩) ?_
  rintro _ u _ ⟨rfl, rfl⟩
  exact later

end Chronicle

/-! ## Deliveries -/

namespace Session

variable {s t : Session}

/-- What deliveries rely on: nothing is owed, the registry is aligned, and catalogs are in order. -/
structure Ready (s : Session) : Prop where
  ledger : s.Ledger false []
  registry : s.Registry
  catalogued : s.Catalogued

theorem Ready.trace {A : Occasion → Prop} {l : List Moment} (hs : s.Ready) (h : Trace A s l t)
    (ht : t.Ledger false []) : t.Ready where
  ledger := ht
  registry := stable_registry.trace h hs.registry
  catalogued := h.keep Catalogued.change (fun _ => Catalogued.effect) hs.catalogued

/-- A report leaves it as it is. -/
theorem Ready.reported (hs : s.Ready) (m : String) (handlers : Nat) :
    (s.emit (.messageDelivered m handlers)).Ready :=
  hs.trace (Trace.start.moment (A := fun _ => True) trivial (.delivered m handlers))
    (hs.ledger.deed (.aside (s.aside_emit _ rfl)))

/-- It is there between calls. -/
theorem ready_of_reachable (hs : Reachable s) : s.Ready :=
  ⟨ledger_of_reachable hs, registry_of_visited hs.visited, catalogued_of_visited hs.visited⟩

/-- Those that have a behavior for a message and take part are listening. -/
theorem Catalogued.recipients_sublist (hs : s.Catalogued) (message : String) :
    (s.stage.ids.filter fun id =>
      s.isLive id && !(s.behaviors id fun t => t == .message message).isEmpty).Sublist
      (s.listeners .message) := by
  refine List.monotone_filter_right _ fun id h => ?_
  obtain ⟨live, some⟩ := Bool.and_eq_true_iff.mp h
  have some : (s.behaviors id fun t => t == .message message) ≠ [] := by
    intro none
    rw [none] at some
    cases some
  obtain ⟨b, hb⟩ := List.exists_mem_of_ne_nil _ some
  have passes : (fun t => t == Trigger.message message) b.trigger = true :=
    Chronicle.passes_of_mem_behaviors hb
  have kind : b.trigger.kind = .message := congrArg Trigger.kind (eq_of_beq passes)
  exact kind ▸ hs.listens hb live

/-- A delivery finds everyone with the behaviors that they had when it began. -/
theorem Ready.lasting {body : List Moment} (hs : s.Ready) (h : Trace Occasion.Delivering s body t)
    (visits : body.filterMap Moment.visited? = s.listeners .message) {k : Moment} {id m : String}
    (hk : k ∈ body) (visit : k.occasion = .visit id) (same : k.session.handle? id = s.handle? id) :
    (k.session.behaviors id fun t => t == .message m) = s.behaviors id fun t => t == .message m := by
  -- whoever is visited was on stage when the delivery began
  have listed : id ∈ s.listeners .message := by
    rw [← visits]
    refine List.mem_filterMap.mpr ⟨k, hk, ?_⟩
    obtain ⟨o, u⟩ := k
    obtain rfl : o = .visit id := visit
    rfl
  obtain ⟨x, there⟩ := hs.registry.stage.mem_ids.mp (List.mem_of_mem_filter listed)
  have old := hs.registry.stage.below x (hs.registry.stage.mem_keys_of_find? there)
  obtain ⟨before, after, rfl⟩ := List.append_of_mem hk
  have retains := h.split.1.retains hs.registry
  exact (retains.kept id x (same.trans there) old).2 _ rfl

end Session

/-- Behaviors that take turns at different entities, or under different identities at one, are told
    apart. -/
theorem Moment.nodup_waits {message : String} {l : List Moment}
    (visits : (l.filterMap Moment.visited?).Nodup) (hl : ∀ k ∈ l, k.session.Catalogued) :
    ((l.flatMap (Moment.waits message)).map fun e => (e.1, e.2.id)).Nodup := by
  -- who waits at a moment is visited at it
  have visited : ∀ (k : Moment) e, e ∈ Moment.waits message k → Moment.visited? k = some e.1 := by
    rintro ⟨o, s⟩ e he
    cases o with
    | visit id =>
      obtain ⟨b, -, rfl⟩ := List.mem_map.mp he
      rfl
    | _ => exact (List.not_mem_nil he).elim
  induction l with
  | nil => exact List.nodup_nil
  | cons k l ih =>
    rw [List.flatMap_cons, List.map_append]
    have later : (l.filterMap Moment.visited?).Nodup := by
      refine visits.sublist ?_
      rw [List.filterMap_cons]
      split
      · exact .refl _
      · exact List.sublist_cons_self _ _
    refine List.nodup_append.mpr ⟨?_, ih later fun j hj => hl j (List.mem_cons_of_mem k hj), ?_⟩
    · obtain ⟨o, s⟩ := k
      cases o with
      | visit id =>
        have once := (hl _ List.mem_cons_self).nodup id fun t => t == .message message
        refine List.Nodup.of_map Prod.snd ?_
        show ((((s.behaviors id _).map fun b => (id, b)).map _).map Prod.snd).Nodup
        rw [List.map_map, List.map_map]
        exact once
      | _ => exact List.nodup_nil
    · rintro e he f hf rfl
      obtain ⟨x, hx, hxe⟩ := List.mem_map.mp he
      obtain ⟨y, hy, hye⟩ := List.mem_map.mp hf
      obtain ⟨j, hj, hyj⟩ := List.mem_flatMap.mp hy
      have here := visited k x hx
      have there := visited j y hyj
      have same : x.1 = y.1 := (congrArg Prod.fst hxe).trans (congrArg Prod.fst hye).symm
      rw [List.filterMap_cons_some here, List.nodup_cons] at visits
      exact visits.1 (same ▸ List.mem_filterMap.mpr ⟨j, hj, there⟩)

/-- A delivery in which everyone who listens has been visited, and all that were found have taken
    turns, is proper. -/
theorem Session.Ready.proper {s t : Session} {m : String} {body : List Moment}
    {turns : List (String × Behavior)} {handlers : Nat} (hs : s.Ready)
    (trace : Trace Occasion.Delivering s body t)
    (handled : Moment.Handled m body (s.listeners .message) turns turns handlers) :
    Delivery.Proper ⟨m, s, body, t, handlers⟩ where
  visits := handled.visits
  recipients := hs.catalogued.recipients_sublist m
  turns := handled.turns.trans handled.waits.symm
  lasting k hk id visit same := hs.lasting trace handled.visits hk visit same
  once := by
    rw [handled.turns, ← handled.waits]
    refine Moment.nodup_waits ?_ fun k hk => ?_
    · rw [handled.visits]
      exact hs.registry.stage.ids.filter _
    · obtain ⟨before, after, rfl⟩ := List.append_of_mem hk
      exact trace.split.1.keep Catalogued.change (fun _ => Catalogued.effect) hs.catalogued
  launches := handled.launches
  handlers := handled.handlers
  alone := ⟨handled.begun, handled.delivered⟩

namespace Chronicle

variable {s : Session}

/-- Behaviors have their turns within a delivery. -/
theorem delivering_handleMessage (message : String) (ids : List String) (handlers : Nat) :
    Told Occasion.Delivering (handleMessage message ids handlers)
      (Play.handleMessage message ids handlers) :=
  told_handleMessage (fun _ h => h.delivering) (fun _ h => h) message ids handlers

/-- **Every delivery that is seen to its end is proper.** -/
theorem yields_deliverMessages (l : List String) (hs : s.Ready) :
    Yields (deliverMessages l) s fun _ t log =>
      t.running = true → ∃ ds : List Delivery, log = ds.flatMap Delivery.moments ∧
        ds.map Delivery.message = l ∧ ∀ d ∈ ds, d.Proper := by
  induction l generalizing s with
  | nil => exact .pure fun _ => ⟨[], rfl, rfl, fun _ h => (List.not_mem_nil h).elim⟩
  | cons m rest ih =>
    refine .marked (.ask ?_)
    have visits := (yields_handleMessage m (s.listeners .message) 0 hs.ledger).and
      (Yields.of_told (delivering_handleMessage m _ 0) (Play.After.any _ s))
    refine visits.bind ?_
    rintro handled t body ⟨⟨ht, idle, complete⟩, -, trace⟩
    cases handled with
    | none =>
      refine .pure fun running => ?_
      rw [idle rfl] at running
      cases running
    | some n =>
      obtain ⟨more, turns, count, handled⟩ := complete n rfl
      obtain rfl : n = more := count.trans (Nat.zero_add more)
      refine yields_reported ((ih ((hs.trace trace ht).reported m n)).mono
        fun _ v log h running => ?_)
      obtain ⟨ds, rfl, same, proper⟩ := h running
      refine ⟨⟨m, s, body, t, n⟩ :: ds, ?_, congrArg (m :: ·) same,
        List.forall_mem_cons.mpr ⟨hs.proper trace handled, proper⟩⟩
      simp only [List.flatMap_cons, Delivery.moments, List.cons_append, List.append_assoc,
        List.nil_append]

end Chronicle

end BlockStage
