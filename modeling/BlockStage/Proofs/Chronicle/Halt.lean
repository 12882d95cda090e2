/-
  Halts: what is still delivered once a script has stopped the session.

  1. **Specification (`Session.Halted`)** — when a script takes the session from running to idle
     during an update, no script does anything more.  Whether anything more is delivered depends on
     how far the deliveries have come.  If none has begun, none begins.  If there is still someone to
     take a turn in the one that is under way (`Underway.left`), it is broken off, and so are all
     others.  But if there is nobody, hosts are told of it and of all messages behind it, as of
     messages that nobody waits for, since it is asked before a turn only whether the session runs.

  2. **The crux (`Chronicle.reaches_handleMessage`)** — scripts are seen only while the session is
     running, so after the halt nothing is seen of the delivery under way but visits, and whoever is
     visited first of those with something to do breaks it off.

  3. **The others (`Chronicle.cut_deliverMessages`)** — a session that has been stopped as a whole has
     no listeners, so nobody breaks off the deliveries of the messages that come later.
-/
import BlockStage.Proofs.Chronicle.Hush
import BlockStage.Proofs.Chronicle.Lively

namespace BlockStage

open Session (Trace Ready Ledger)

/-! ## The specification -/

/-- Does a script do something at a moment? -/
def Moment.works : Moment → Bool
  | ⟨.work _ _ _, _⟩ => true
  | _ => false

/-- At a moment, which is followed by others, a script takes the session from running to idle. -/
structure Moment.Halts (k : Moment) (after : List Moment) (t : Session) : Prop where
  works : k.works = true
  idle : (Moment.next after t).running = false

/-- A delivery that is under way: the message, the session when it began, and the moments since. -/
structure Underway where
  message : String
  start : Session
  body : List Moment

namespace Underway

/-- All moments of a delivery so far. -/
def moments (d : Underway) : List Moment := ⟨.deliver d.message, d.start⟩ :: d.body

/-- The number of behaviors that have been launched. -/
def handlers (d : Underway) : Nat := (d.body.filterMap Moment.due?).length

/-- The behaviors that have still to take turns: those that were found at a visit and have not yet
    taken one, and those of the listeners that are still to be visited. -/
def left (d : Underway) (t : Session) : List (String × Behavior) :=
  (d.body.flatMap (Moment.waits d.message)).drop (d.body.filterMap Moment.turned?).length ++
    ((d.start.listeners .message).drop (d.body.filterMap Moment.visited?).length).flatMap fun id =>
      (t.behaviors id fun x => x == .message d.message).map fun b => (id, b)

/-- What follows when everything is stopped while a delivery is under way and other messages are
    pending: if nobody has still to take a turn, then hosts are told of all of them; otherwise
    nothing more is delivered. -/
structure Ends (d : Underway) (pending : List String) (rest : List Moment) (t : Session) :
    Prop where
  begun : rest.filterMap Moment.begun? = if (d.left t).isEmpty then pending else []
  delivered : rest.filterMap Moment.delivered?
    = if (d.left t).isEmpty then (d.message, d.handlers) :: pending.map fun m => (m, 0) else []

end Underway

/-- What is delivered of the messages that were queued when everything is stopped: of the moments
    before that, the one at which it happens, those after, and the session in the end. -/
structure Moment.Silences (messages : List String) (before : List Moment) (k : Moment)
    (after : List Moment) (t : Session) : Prop where
  /-- Up to then the messages are delivered that were queued first. -/
  taken : before.filterMap Moment.begun? <+: messages
  /-- If no delivery has begun, then none does. -/
  early : before.filterMap Moment.begun? = [] →
    after.filterMap Moment.begun? = [] ∧ after.filterMap Moment.delivered? = []
  /-- If a delivery is under way, then it depends on whether anyone has still to take a turn. -/
  late : ∀ front (d : Underway), before ++ [k] = front ++ d.moments →
    d.body.filterMap Moment.begun? = [] →
    d.Ends (messages.drop (before.filterMap Moment.begun?).length) after t
  /-- So no further delivery begins exactly if none is pending, or if someone has still to take a turn
      in the one under way. -/
  spared : after.filterMap Moment.begun? = [] ↔ before.filterMap Moment.begun? = messages ∨
    ∀ front (d : Underway), before ++ [k] = front ++ d.moments →
      d.body.filterMap Moment.begun? = [] → d.left t ≠ []

/-- What can be said of an update in which a script stops the session. -/
structure Session.Halted (s : Session) (before : List Moment) (k : Moment) (after : List Moment)
    (t : Session) : Prop extends k.Silences s.inbox before after t where
  /-- Calls that are watched end as they do, and change the session as they do. -/
  same : ∀ (c : Call) (u : Session), (c.watched u).1 = c.run u
  /-- The session remains idle. -/
  idle : t.running = false
  /-- No script does anything more. -/
  still : ∀ j ∈ after, j.session.running = false ∧ j.works = false
  /-- Hosts are told of the deliveries that are seen to be over, and of no other. -/
  heard : t.heard = k.session.heard ++ after.filterMap Moment.delivered?

/-! ## Idle deliveries -/

namespace Chronicle

variable {s : Session} {message : String}

/-- In an idle session nobody takes a turn. -/
theorem yields_handleEach_idle (idle : s.running = false) (id : String) (l : List Behavior)
    (handlers : Nat) :
    Yields (handleEach id l handlers) s fun handled t log =>
      t = s ∧ handled = (if l.isEmpty then some handlers else none) ∧ log = [] := by
  cases l with
  | nil => exact .pure ⟨rfl, rfl, rfl⟩
  | cons b rest =>
    refine .look ?_
    rw [idle]
    exact .pure ⟨rfl, rfl, rfl⟩

/-- So a delivery goes on to the first who would have to take one. -/
theorem yields_handleMessage_idle (idle : s.running = false) (message : String)
    (ids : List String) (handlers : Nat) :
    Yields (handleMessage message ids handlers) s fun handled t log =>
      t = s ∧ (∀ k ∈ log, ∃ id, k = ⟨.visit id, s⟩) ∧
        handled = if ids.all fun id => (s.behaviors id fun t => t == .message message).isEmpty then
          some handlers else none := by
  induction ids with
  | nil => exact .pure ⟨rfl, fun _ h => (List.not_mem_nil h).elim, rfl⟩
  | cons id rest ih =>
    refine .marked (.ask ((yields_handleEach_idle idle id _ handlers).bind ?_))
    rintro _ _ _ ⟨rfl, rfl, rfl⟩
    rw [List.all_cons]
    cases (Session.behaviors _ id fun t => t == .message message).isEmpty with
    | true =>
      refine ih.mono ?_
      rintro handled t log ⟨rfl, visits, answer⟩
      exact ⟨rfl, List.forall_mem_cons.mpr ⟨⟨id, rfl⟩, visits⟩, answer⟩
    | false =>
      refine .pure ⟨rfl, fun k hk => ?_, rfl⟩
      obtain rfl := List.mem_singleton.mp hk
      exact ⟨id, rfl⟩

/-- In a hushed session hosts are told of all messages, since nobody listens. -/
theorem yields_deliverMessages_hushed (hs : s.Hushed) (l : List String) :
    Yields (deliverMessages l) s fun _ t log =>
      t.running = false ∧ t.catalogs = s.catalogs ∧ (∀ j ∈ log, j.session.running = false) ∧
        log.filterMap Moment.begun? = l ∧
        log.filterMap Moment.delivered? = l.map fun m => (m, 0) := by
  induction l generalizing s with
  | nil => exact .pure ⟨hs.idle, rfl, fun _ h => (List.not_mem_nil h).elim, rfl, rfl⟩
  | cons m rest ih =>
    refine .marked (.ask ?_)
    rw [hs.listeners]
    refine Yields.bind (Q := fun handled t log => handled = some 0 ∧ t = s ∧ log = [])
      (.pure ⟨rfl, rfl, rfl⟩) ?_
    rintro _ u _ ⟨rfl, rfl, rfl⟩
    refine yields_reported ((ih (s := u.emit (.messageDelivered m 0))
      (hs.same rfl (.refl _))).mono ?_)
    rintro _ t log ⟨idle, same, still, begun, delivered⟩
    refine ⟨idle, same, ?_, congrArg (m :: ·) begun, congrArg ((m, 0) :: ·) delivered⟩
    exact List.forall_mem_cons.mpr ⟨hs.idle, List.forall_mem_cons.mpr ⟨hs.idle, still⟩⟩

end Chronicle

/-! ## Running deliveries -/

namespace Chronicle

variable {α : Type} {s : Session} {message : String}

/-- What is lively is seen while the session is running. -/
theorem Livens.yields {c : Chronicle α} (h : Livens c) :
    Yields c s fun _ _ l => ∀ k ∈ l, k.session.running = true := fun _ _ _ => h.running s trivial

theorem lively_handleEach (entity : String) (l : List Behavior) (handlers : Nat) :
    Livens (handleEach entity l handlers) := by
  induction l generalizing handlers with
  | nil => exact .pure _
  | cons b rest ih =>
    refine .look fun s => .ite _ (fun _ => .pure _) fun going => .marked ?_ ?_
    · rintro t ⟨rfl, -⟩
      simpa using going
    · exact .ite _ (fun _ => (lively_launch entity b).of.bind fun _ => ih _) fun _ =>
        Lively.bind (.pure false) fun _ => ih _

/-- How far a message has been brought to those it is for: what has been seen of it while the session
    was running and what afterwards, the turns that have been taken and those that were due besides,
    those who have not been visited up to the halt, and the number of launches. -/
structure Reaches (message : String) (ids : List String) (body idle : List Moment)
    (turns left : List (String × Behavior)) (unseen : List String) (more : Nat) (t : Session) :
    Prop where
  handled : ∃ seen, ids = seen ++ unseen ∧
    Moment.Handled message body seen (turns ++ left) turns more
  lively : ∀ k ∈ body, k.session.running = true
  visits : ∀ k ∈ idle, ∃ id, k = ⟨.visit id, t⟩
  whole : t.running = true → unseen = [] ∧ left = [] ∧ idle = []
  undivided : t.Undivided

namespace Reaches

variable {t : Session} {id : String} {rest : List String} {first body idle : List Moment}
  {turns left : List (String × Behavior)} {unseen : List String} {more : Nat}

theorem nobody (running : s.running = true) : Reaches message [] [] [] [] [] [] 0 s where
  handled := ⟨[], rfl, .nil⟩
  lively _ h := (List.not_mem_nil h).elim
  visits _ h := (List.not_mem_nil h).elim
  whole _ := ⟨rfl, rfl, rfl⟩
  undivided := .inl running

/-- Someone has been visited, and all that were found have taken their turns. -/
theorem later {done : List (String × Behavior)} {n : Nat}
    (visit : Moment.Handled message first [id] done done n)
    (lively : ∀ k ∈ first, k.session.running = true)
    (reaches : Reaches message rest body idle turns left unseen more t) :
    Reaches message (id :: rest) (first ++ body) idle (done ++ turns) left unseen (n + more) t where
  handled := by
    obtain ⟨seen, rfl, there⟩ := reaches.handled
    refine ⟨id :: seen, rfl, ?_⟩
    rw [List.append_assoc]
    exact visit.append there
  lively := List.forall_mem_append.mpr ⟨lively, reaches.lively⟩
  visits := reaches.visits
  whole := reaches.whole
  undivided := reaches.undivided

/-- At someone's turn the session is halted. -/
theorem halted (visit : Moment.Handled message first [id] (turns ++ left) turns more)
    (lively : ∀ k ∈ first, k.session.running = true) (going : t.running = false)
    (visits : ∀ k ∈ idle, ∃ id, k = ⟨.visit id, t⟩) (undivided : t.Undivided) :
    Reaches message (id :: rest) first idle turns left rest more t where
  handled := ⟨[id], rfl, visit⟩
  lively := lively
  visits := visits
  whole running := by
    rw [going] at running
    cases running
  undivided := undivided

end Reaches

/-- **After a halt nothing is seen of a delivery but visits**, and it is broken off exactly if anyone
    has still to take a turn. -/
theorem reaches_handleMessage (message : String) (ids : List String) (handlers : Nat)
    (hs : s.Ready) (running : s.running = true) :
    Yields (handleMessage message ids handlers) s fun handled t log => t.Ledger false [] ∧
      ∃ body idle turns left unseen more, log = body ++ idle ∧
        Reaches message ids body idle turns left unseen more t ∧
        handled = if left.isEmpty &&
            unseen.all fun id => (t.behaviors id fun x => x == .message message).isEmpty then
          some (handlers + more) else none := by
  induction ids generalizing s handlers with
  | nil => exact .pure ⟨hs.ledger, [], [], [], [], [], 0, rfl, .nobody running, rfl⟩
  | cons id rest ih =>
    refine .marked (.ask ?_)
    have told : Told Occasion.Delivering (handleEach id _ handlers) (Play.handleEach id _ handlers) :=
      told_handleEach (fun _ h => h.delivering) (fun _ h => h)
        (s.behaviors id fun t => t == .message message) fits_of_behaviors handlers
    have turns := ((yields_handleEach id _ fits_of_behaviors handlers hs.ledger).and
      (Yields.of_told told (Play.After.any _ s))).and (lively_handleEach id _ handlers).yields
    refine turns.bind ?_
    rintro _ u first ⟨⟨⟨hu, done, left, more, found, here, rfl, halted⟩, -, trace⟩, lively⟩
    have undivided := trace.undivided (fun _ h => h.inner) hs.registry lively running
    have seen : ∀ k ∈ (⟨.visit id, s⟩ :: first : List Moment), k.session.running = true :=
      List.forall_mem_cons.mpr ⟨running, lively⟩
    have visit := Moment.Handled.visited found here
    cases going : u.running with
    | true =>
      -- the session is still running, so all have taken their turns
      have spent : left = [] := Classical.byContradiction fun some => by
        rw [halted some] at going
        cases going
      subst spent
      rw [List.map_nil, List.append_nil] at visit
      refine (ih (handlers + more) (hs.trace trace hu) going).mono ?_
      rintro handled t log ⟨ht, body, idle, turns, left, unseen, others, rfl, reaches, answer⟩
      refine ⟨ht, ⟨.visit id, s⟩ :: first ++ body, idle, _, left, unseen, more + others, ?_,
        reaches.later visit seen, ?_⟩
      · simp only [List.cons_append, List.append_assoc]
      · rw [← Nat.add_assoc]
        exact answer
    | false =>
      cases left with
      | cons b left =>
        have unvisited : ∀ k ∈ ([] : List Moment), ∃ id, k = ⟨.visit id, u⟩ :=
          fun _ h => (List.not_mem_nil h).elim
        exact .pure ⟨hu, ⟨.visit id, s⟩ :: first, [], _, _, rest, more, rfl,
          .halted visit seen going unvisited undivided, rfl⟩
      | nil =>
        refine (yields_handleMessage_idle going message rest (handlers + more)).mono ?_
        rintro handled t log ⟨rfl, visits, answer⟩
        exact ⟨hu, ⟨.visit id, s⟩ :: first, log, _, [], rest, more, rfl,
          .halted visit seen going visits undivided, answer⟩

end Chronicle

/-! ## Halts during deliveries -/

namespace Underway

/-- Everything is stopped while a delivery is under way: up to there the session is running, and it is
    idle in what follows, which ends the delivery. -/
structure Cut (d : Underway) (front rest : List Moment) (pending : List String) (t : Session) :
    Prop where
  lively : ∀ k ∈ front ++ d.moments, k.session.running = true
  idle : ∀ k ∈ rest, k.session.running = false
  body : d.body.filterMap Moment.begun? = []
  ends : d.Ends pending rest t

/-- Only catalogs matter to those who have still to take turns. -/
theorem left_congr {t u : Session} (d : Underway) (h : u.catalogs = t.catalogs) :
    d.left u = d.left t := by
  have same : ∀ id test, u.behaviors id test = t.behaviors id test := fun id test => by
    rw [Session.behaviors, Session.behaviors, h]
  simp only [left, same]

/-- Nobody has still to take a turn if all that were found have taken one, and if nobody is to be
    found at the visits that are still to come. -/
theorem isEmpty_left {d : Underway} {seen unseen : List String}
    {turns left : List (String × Behavior)} {more : Nat}
    (listed : d.start.listeners .message = seen ++ unseen)
    (h : Moment.Handled d.message d.body seen (turns ++ left) turns more) (t : Session) :
    (d.left t).isEmpty = (left.isEmpty &&
      unseen.all fun id => (t.behaviors id fun x => x == .message d.message).isEmpty) := by
  rw [Underway.left, h.waits, h.turns, h.visits, listed, List.drop_left, List.drop_left,
    Bool.eq_iff_iff, Bool.and_eq_true, List.all_eq_true]
  simp only [List.isEmpty_iff, List.append_eq_nil_iff, List.flatMap_eq_nil_iff, List.map_eq_nil_iff]

end Underway

/-- Visits neither begin a delivery nor end one. -/
theorem Moment.silent_of_visits {l : List Moment} {t : Session}
    (h : ∀ k ∈ l, ∃ id, k = ⟨.visit id, t⟩) :
    l.filterMap Moment.begun? = [] ∧ l.filterMap Moment.delivered? = [] := by
  constructor
  · refine List.filterMap_eq_nil_iff.mpr fun k hk => ?_
    obtain ⟨id, rfl⟩ := h k hk
    rfl
  · refine List.filterMap_eq_nil_iff.mpr fun k hk => ?_
    obtain ⟨id, rfl⟩ := h k hk
    rfl

/-- What has been seen before the cut of other deliveries makes no difference to it. -/
theorem Underway.Cut.later {d : Underway} {front rest first : List Moment} {pending : List String}
    {t : Session} (cut : d.Cut front rest pending t)
    (lively : ∀ k ∈ first, k.session.running = true) : d.Cut (first ++ front) rest pending t where
  lively := by
    rw [List.append_assoc]
    exact List.forall_mem_append.mpr ⟨lively, cut.lively⟩
  idle := cut.idle
  body := cut.body
  ends := cut.ends

namespace Chronicle

variable {s t : Session}

namespace Reaches

variable {message : String} {body idle : List Moment} {turns left : List (String × Behavior)}
  {unseen : List String} {more : Nat}
  (reaches : Reaches message (s.listeners .message) body idle turns left unseen more t)
include reaches

/-- How far a message has been brought tells whether anyone has still to take a turn. -/
theorem isEmpty_left : (Underway.left ⟨message, s, body⟩ t).isEmpty = (left.isEmpty &&
    unseen.all fun id => (t.behaviors id fun x => x == .message message).isEmpty) := by
  obtain ⟨seen, listed, handled⟩ := reaches.handled
  exact Underway.isEmpty_left (d := ⟨message, s, body⟩) listed handled t

theorem body_begun : body.filterMap Moment.begun? = [] := by
  obtain ⟨seen, -, handled⟩ := reaches.handled
  exact handled.begun

theorem idle_of_visits (going : t.running = false) : ∀ k ∈ idle, k.session.running = false := by
  intro k hk
  obtain ⟨id, rfl⟩ := reaches.visits k hk
  exact going

theorem lively_moments (running : s.running = true) :
    ∀ k ∈ Underway.moments ⟨message, s, body⟩, k.session.running = true :=
  List.forall_mem_cons.mpr ⟨running, reaches.lively⟩

/-- If someone has still to take a turn at the halt, the delivery is broken off, and so is all that
    is pending. -/
theorem cut_of_left (running : s.running = true) (going : t.running = false)
    (some : (Underway.left ⟨message, s, body⟩ t).isEmpty = false) (pending : List String) :
    Underway.Cut ⟨message, s, body⟩ [] idle pending t := by
  obtain ⟨begun, delivered⟩ := Moment.silent_of_visits reaches.visits
  refine ⟨reaches.lively_moments running, reaches.idle_of_visits going, reaches.body_begun, ?_, ?_⟩
  · rw [some]
    exact begun
  · rw [some]
    exact delivered

/-- If nobody has, hosts are told of it, and of all that is pending if they are told of that. -/
theorem cut_of_spent (running : s.running = true) (going : t.running = false)
    (spent : (Underway.left ⟨message, s, body⟩ t).isEmpty = true) {pending : List String}
    {u : Session} {log : List Moment} (same : u.catalogs = t.catalogs)
    (others : ∀ k ∈ log, k.session.running = false)
    (begun : log.filterMap Moment.begun? = pending)
    (delivered : log.filterMap Moment.delivered? = pending.map fun m => (m, 0)) :
    Underway.Cut ⟨message, s, body⟩ [] (idle ++ ⟨.delivered message more, t⟩ :: log) pending u := by
  obtain ⟨seen, -, handled⟩ := reaches.handled
  have visits := Moment.silent_of_visits reaches.visits
  have count : Underway.handlers ⟨message, s, body⟩ = more := handled.handlers
  have spent : (Underway.left ⟨message, s, body⟩ u).isEmpty = true :=
    (congrArg List.isEmpty (Underway.left_congr _ same)).trans spent
  have still : ∀ k ∈ (⟨.delivered message more, t⟩ :: log : List Moment),
      k.session.running = false := List.forall_mem_cons.mpr ⟨going, others⟩
  refine ⟨reaches.lively_moments running,
    List.forall_mem_append.mpr ⟨reaches.idle_of_visits going, still⟩, reaches.body_begun, ?_, ?_⟩
  · rw [spent, List.filterMap_append, visits.1]
    exact begun
  · rw [spent, count, List.filterMap_append, visits.2]
    exact congrArg ((message, more) :: ·) delivered

end Reaches

/-- **If everything is stopped while messages are delivered, then in one of the deliveries.** -/
theorem cut_deliverMessages (l : List String) (hs : s.Ready) (running : s.running = true) :
    Yields (deliverMessages l) s fun _ t log => t.running = true ∨
      ∃ (d : Underway) (front rest : List Moment) (pending : List String),
        log = front ++ d.moments ++ rest ∧
        front.filterMap Moment.begun? ++ d.message :: pending = l ∧ d.Cut front rest pending t := by
  induction l generalizing s with
  | nil => exact .pure (.inl running)
  | cons m pending ih =>
    refine .marked (.ask ?_)
    refine ((reaches_handleMessage m _ 0 hs running).and
      (Yields.of_told (delivering_handleMessage m _ 0) (Play.After.any _ s))).bind ?_
    rintro _ t _ ⟨⟨ht, body, idle, turns, left, unseen, more, rfl, reaches, rfl⟩, -, trace⟩
    rw [Nat.zero_add]
    cases going : t.running with
    | true =>
      -- the delivery is seen to its end, and the halt is in one of the others
      obtain ⟨rfl, rfl, rfl⟩ := reaches.whole going
      refine yields_reported ((ih ((hs.trace trace ht).reported m more) going).mono
        fun _ v log h => h.imp_right ?_)
      rintro ⟨d, front, rest, pending, rfl, rfl, cut⟩
      have first : ∀ k ∈ (⟨.deliver m, s⟩ :: body ++ [⟨.delivered m more, t⟩] : List Moment),
          k.session.running = true :=
        List.forall_mem_append.mpr ⟨reaches.lively_moments running, List.forall_mem_singleton.mpr going⟩
      refine ⟨d, _, rest, pending, ?_, ?_, cut.later first⟩
      · simp only [List.append_nil, List.cons_append, List.nil_append, List.append_assoc]
      · show m :: List.filterMap Moment.begun? (body ++ _ ++ front) ++ _ = _
        rw [List.filterMap_append, List.filterMap_append, reaches.body_begun]
        rfl
    | false =>
      have hushed : t.Hushed := reaches.undivided.resolve_left (by simp [going])
      have spent := reaches.isEmpty_left
      cases ended : (left.isEmpty &&
          unseen.all fun id => (t.behaviors id fun x => x == .message m).isEmpty) with
      | false =>
        rw [ended] at spent
        refine .pure (.inr ⟨⟨m, s, body⟩, [], idle, pending, ?_, rfl,
          reaches.cut_of_left running going spent pending⟩)
        rw [List.append_nil]
        rfl
      | true =>
        rw [ended] at spent
        refine yields_reported ((yields_deliverMessages_hushed
          (s := t.emit (.messageDelivered m more)) (hushed.same rfl (.refl _)) pending).mono ?_)
        rintro _ v log ⟨-, same, others, begun, delivered⟩
        refine .inr ⟨⟨m, s, body⟩, [], _, pending, ?_, rfl,
          reaches.cut_of_spent running going spent same others begun delivered⟩
        simp only [List.nil_append, Underway.moments, List.cons_append, List.append_assoc]

/-- Part of an update, to its end: first come quiet moments, and last the deliveries, in which
    everything is stopped unless the session keeps running. -/
structure Halting (messages : List String) (s : Session) (l : List Moment) (t : Session) :
    Prop where
  trace : Trace Occasion.Inner s l t
  parts : ∃ front last, l = front ++ last ∧ (∀ k ∈ front, k.occasion.Quiet) ∧
    (last = [] ∨ t.running = true ∨
      ∃ (d : Underway) (done rest : List Moment) (pending : List String),
        last = done ++ d.moments ++ rest ∧
        done.filterMap Moment.begun? ++ d.message :: pending = messages ∧ d.Cut done rest pending t)

theorem Halting.after {messages : List String} {s t u : Session} {l m : List Moment}
    (h : Trace Occasion.Preparing s l t) (k : Halting messages t m u) :
    Halting messages s (l ++ m) u := by
  obtain ⟨front, last, rfl, quiet, deliveries⟩ := k.parts
  refine ⟨(h.mono fun _ ho => ho.2).trans k.trace, l ++ front, last,
    (List.append_assoc _ _ _).symm, ?_, deliveries⟩
  exact List.forall_mem_append.mpr ⟨fun j hj => (h.kind j hj).1, quiet⟩

/-- **An update in which everything is stopped.** -/
theorem halting_updateBy (hs : s.Ready) (running : s.running = true) (dt : Float32) :
    Yields (updateBy dt) s fun _ t l =>
      ∃ rest, l = ⟨.update, s⟩ :: rest ∧ Halting s.inbox { s with inbox := [] } rest t := by
  refine yields_round Halting.after hs running dt fun u hu => .ask ?_
  cases going : u.running with
  | false =>
    rw [if_neg (by simp)]
    exact .silent ⟨Trace.start.change (.feat (.stage (u.stage.calm_record _))), [], [], rfl,
      fun _ h => (List.not_mem_nil h).elim, .inl rfl⟩
  | true =>
    rw [if_pos rfl]
    refine ((cut_deliverMessages s.inbox hu going).and
      (Yields.of_told (inner_deliverMessages s.inbox) (Play.After.any _ u))).bind ?_
    rintro _ v l ⟨cut, -, trace⟩
    refine .silent ⟨?_, [], l, List.append_nil l, fun _ h => (List.not_mem_nil h).elim, .inr ?_⟩
    · rw [List.append_nil]
      exact trace.change (.feat (.stage (v.stage.calm_record _)))
    · refine cut.imp_right ?_
      rintro ⟨d, done, rest, pending, same, taken, cut⟩
      exact ⟨d, done, rest, pending, same, taken, cut.lively, cut.idle, cut.body,
        cut.ends.begun, cut.ends.delivered⟩

end Chronicle

/-! ## Where the halt is -/

namespace Moment

variable {messages : List String} {front rest before after : List Moment} {k z : Moment}
  {s t : Session}

/-- Moments, split at one of them. -/
theorem split_at (l : List Moment) (n : Nat) (h : n < l.length) :
    l = l.take n ++ l[n] :: l.drop (n + 1) := by
  rw [← List.drop_eq_getElem_cons h, List.take_append_drop]

/-- When a script does something, no delivery begins or ends. -/
theorem unspoken_of_works (h : k.works = true) : k.begun? = none ∧ k.delivered? = none := by
  obtain ⟨o, u⟩ := k
  cases o with
  | work => exact ⟨rfl, rfl⟩
  | _ => cases h

/-- Scripts are at work only while the session is running. -/
theorem running_of_works {A : Occasion → Prop} (trace : Trace A s (before ++ k :: after) t)
    (h : k.works = true) : k.session.running = true := by
  obtain ⟨-, -, u, effect, -⟩ := trace.split
  obtain ⟨o, v⟩ := k
  cases effect with
  | work may => exact Chronicle.running_of_mayRun may
  | _ => cases h

/-- If the session is running at the last moment of a first part and idle in what follows, then that
    moment is the one at which it is halted. -/
theorem split_of_halt (same : before ++ k :: after = front ++ rest)
    (last : front.getLast? = some z) (lively : z.session.running = true)
    (idle : ∀ j ∈ rest, j.session.running = false) (running : k.session.running = true)
    (still : ∀ j ∈ after, j.session.running = false) : before ++ [k] = front ∧ after = rest := by
  have apart : ∀ {x : Moment}, x.session.running = true → x.session.running ≠ false :=
    fun h h' => by cases h.symm.trans h'
  rw [List.append_cons] at same
  rcases List.append_eq_append_iff.mp same with ⟨more, longer, left⟩ | ⟨more, longer, left⟩
  · rcases List.eq_nil_or_concat more with rfl | ⟨others, x, rfl⟩
    · exact ⟨(longer.trans (List.append_nil _)).symm, left⟩
    · -- the last moment of the first part comes after the halt
      rw [longer, List.concat_eq_append, ← List.append_assoc, List.getLast?_concat] at last
      obtain rfl := Option.some.inj last
      refine absurd (still x ?_) (apart lively)
      rw [left, List.concat_eq_append]
      exact List.mem_append_left _ (List.mem_append_right _ List.mem_cons_self)
  · rcases List.eq_nil_or_concat more with rfl | ⟨others, x, rfl⟩
    · exact ⟨longer.trans (List.append_nil _), left.symm⟩
    · -- the halt is in what follows the first part
      rw [List.concat_eq_append, ← List.append_assoc] at longer
      obtain ⟨-, final⟩ := List.append_inj' longer rfl
      obtain rfl := (List.cons.inj final).1
      refine absurd (idle k ?_) (apart running)
      rw [left, List.concat_eq_append]
      exact List.mem_append_left _ (List.mem_append_right _ List.mem_cons_self)

end Moment

/-- Only one delivery can be under way. -/
theorem Underway.unique {front front' : List Moment} {d d' : Underway}
    (same : front ++ d.moments = front' ++ d'.moments) (hd : d.body.filterMap Moment.begun? = [])
    (hd' : d'.body.filterMap Moment.begun? = []) : d = d' := by
  have only : ∀ {more : List Moment} {d d' : Underway}, d.moments = more ++ d'.moments →
      d.body.filterMap Moment.begun? = [] → d = d' := by
    intro more d d' same hd
    cases more with
    | nil =>
      obtain ⟨m, s, body⟩ := d
      obtain ⟨first, rfl⟩ := List.cons.inj same
      cases first
      rfl
    | cons x more =>
      -- the second delivery would begin in the first
      rw [(List.cons.inj same).2] at hd
      rw [List.append_eq, List.filterMap_append] at hd
      cases (List.append_eq_nil_iff.mp hd).2
  rcases List.append_eq_append_iff.mp same with ⟨more, -, left⟩ | ⟨more, -, left⟩
  · exact only left hd
  · exact (only left hd').symm

namespace Moment.Silences

variable {messages : List String} {before after : List Moment} {k : Moment} {t : Session}

/-- If deliveries neither begin nor end, there is nothing to be silenced. -/
theorem of_silent (begun : (before ++ k :: after).filterMap Moment.begun? = [])
    (delivered : (before ++ k :: after).filterMap Moment.delivered? = []) :
    k.Silences messages before after t := by
  have none : ∀ front (d : Underway), before ++ [k] ≠ front ++ d.moments := by
    intro front d same
    rw [List.append_cons, same, List.filterMap_append, List.filterMap_append] at begun
    cases (List.append_eq_nil_iff.mp (List.append_eq_nil_iff.mp begun).1).2
  rw [List.append_cons, List.filterMap_append] at begun delivered
  obtain ⟨front, begun⟩ := List.append_eq_nil_iff.mp begun
  obtain ⟨-, delivered⟩ := List.append_eq_nil_iff.mp delivered
  rw [List.filterMap_append] at front
  refine ⟨?_, fun _ => ⟨begun, delivered⟩, fun front d same => absurd same (none front d),
    fun _ => .inr fun front d same => absurd same (none front d), fun _ => begun⟩
  rw [(List.append_eq_nil_iff.mp front).1]
  exact List.nil_prefix

/-- If a delivery is under way, it ends, and so does everything else. -/
theorem of_underway {front : List Moment} {d : Underway} {pending : List String}
    (works : k.works = true) (same : before ++ [k] = front ++ d.moments)
    (taken : front.filterMap Moment.begun? ++ d.message :: pending = messages)
    (body : d.body.filterMap Moment.begun? = []) (ends : d.Ends pending after t) :
    k.Silences messages before after t := by
  have begun : before.filterMap Moment.begun? = front.filterMap Moment.begun? ++ [d.message] := by
    have begins := congrArg (List.filterMap Moment.begun?) same
    rw [List.filterMap_append, List.filterMap_cons_none (unspoken_of_works works).1,
      List.filterMap_nil, List.append_nil, List.filterMap_append] at begins
    rw [begins]
    show _ ++ d.message :: d.body.filterMap Moment.begun? = _
    rw [body]
  have queued : messages = before.filterMap Moment.begun? ++ pending := by
    rw [begun, List.append_assoc]
    exact taken.symm
  have left : messages.drop (before.filterMap Moment.begun?).length = pending := by
    rw [queued, List.drop_left]
  have only : ∀ front' (d' : Underway), before ++ [k] = front' ++ d'.moments →
      d'.body.filterMap Moment.begun? = [] → d = d' :=
    fun front' d' same' => Underway.unique (same.symm.trans same') body
  refine ⟨⟨pending, queued.symm⟩, fun none => ?_, fun front' d' same' body' => ?_, ?_⟩
  · rw [begun] at none
    cases (List.append_eq_nil_iff.mp none).2
  · rw [left, ← only front' d' same' body']
    exact ends
  · rw [ends.begun]
    constructor
    · intro none
      split at none
      · refine .inl ?_
        rw [queued, none, List.append_nil]
      · rename_i some
        refine .inr fun front' d' same' body' empty => some ?_
        rw [only front' d' same' body', empty]
        rfl
    · rintro (all | some)
      · have none : pending = [] := by
          rw [← left, all, List.drop_length]
        rw [none, ite_self]
      · exact if_neg fun empty => some front d same body (List.isEmpty_iff.mp empty)

/-- What comes before all deliveries makes no difference. -/
theorem cons {x : Moment} (h : k.Silences messages before after t) (hx : x.begun? = none) :
    k.Silences messages (x :: before) after t := by
  have begun : (x :: before).filterMap Moment.begun? = before.filterMap Moment.begun? :=
    List.filterMap_cons_none hx
  have split : ∀ front (d : Underway), x :: before ++ [k] = front ++ d.moments →
      ∃ front', before ++ [k] = front' ++ d.moments := by
    intro front d same
    cases front with
    | nil =>
      rw [(List.cons.inj same).1] at hx
      cases hx
    | cons y front => exact ⟨front, (List.cons.inj same).2⟩
  refine ⟨begun ▸ h.taken, begun ▸ h.early, fun front d same body => ?_, ?_⟩
  · obtain ⟨front', same'⟩ := split front d same
    rw [begun]
    exact h.late front' d same' body
  · rw [begun, h.spared]
    refine or_congr_right ⟨fun some front d same body => ?_, fun some front d same body => ?_⟩
    · obtain ⟨front', same'⟩ := split front d same
      exact some front' d same' body
    · exact some (x :: front) d (congrArg (x :: ·) same) body

end Moment.Silences

/-! ## The theorem -/

namespace Session

open Chronicle (Yields Halting)

variable {s t : Session}

/-- **What is silenced**: the halt is among what prepares the deliveries, or it is the last that is
    seen of the delivery under way while the session is running. -/
theorem silences_of_halting {messages : List String} {before after : List Moment} {k : Moment}
    (h : Halting messages s (before ++ k :: after) t) (halts : k.Halts after t) :
    k.Silences messages before after t := by
  have running := Moment.running_of_works h.trace halts.works
  obtain ⟨-, -, u, -, rest⟩ := h.trace.split
  obtain ⟨idle, still⟩ := rest.still (fun _ h => h) halts.idle
  obtain ⟨front, last, same, quiet, deliveries⟩ := h.parts
  have silent := Moment.silent_of_quiet quiet
  rcases deliveries with rfl | going | ⟨d, done, rest, pending, rfl, taken, cut⟩
  · rw [List.append_nil] at same
    exact .of_silent (same ▸ silent.1) (same ▸ silent.2)
  · rw [idle] at going
    cases going
  · obtain ⟨z, hz⟩ : ∃ z, d.moments.getLast? = some z :=
      ⟨_, List.getLast?_eq_some_getLast (List.cons_ne_nil _ _)⟩
    have lively := cut.lively z (List.mem_append_right _ (List.mem_of_getLast? hz))
    have final : (front ++ done ++ d.moments).getLast? = some z := by
      rw [List.getLast?_append, hz]
      rfl
    have joined : before ++ k :: after = front ++ done ++ d.moments ++ rest := by
      simp only [same, List.append_assoc]
    obtain ⟨whole, rfl⟩ := Moment.split_of_halt joined final lively cut.idle running still
    refine .of_underway halts.works whole ?_ cut.body cut.ends
    rw [List.filterMap_append, silent.1]
    exact taken

/-- An update is seen, and if it finds the session running, then its round. -/
theorem yields_update (hs : s.Ready) {c : Call} (hc : c.isUpdate = true) :
    Yields c.watched s fun _ t l => ∃ rest, l = ⟨.call c, s⟩ :: rest ∧ (rest = [] ∨
      ∃ inside, rest = ⟨.update, s⟩ :: inside ∧
        Halting s.inbox { s with inbox := [] } inside t) := by
  have round : ∀ dt, Yields (Chronicle.updateBy dt) s fun _ t l => l = [] ∨
      ∃ inside, l = ⟨.update, s⟩ :: inside ∧
        Halting s.inbox { s with inbox := [] } inside t := by
    intro dt
    by_cases running : s.running = true
    · exact (Chronicle.halting_updateBy hs running dt).mono fun _ _ _ h => .inr h
    · rw [Chronicle.updateBy]
      refine .ask ?_
      rw [if_neg running]
      exact .pure (.inl rfl)
  cases c with
  | script c =>
    cases c with
    | update => exact .marked ((Yields.ask (round _)).mono fun _ _ l h => ⟨l, rfl, h⟩)
    | updateBy dt => exact .marked ((round dt).mono fun _ _ l h => ⟨l, rfl, h⟩)
    | _ => cases hc
  | _ => cases hc

/-- **What follows a halt**: whatever is queued, whoever handles it, and at whatever depth of
    whichever phase of an update a script stops the session. -/
theorem halted_of_reachable (hs : Reachable s) {c : Call} (hc : c.isUpdate = true)
    (returns : c.run.returns s = true) {before after : List Moment} {k : Moment}
    (hl : (c.watched s).2 = before ++ k :: after) (halts : k.Halts after (c.run.last s)) :
    s.Halted before k after (c.run.last s) := by
  obtain ⟨_, ends⟩ := Play.eq_of_returns returns
  obtain ⟨rest, seen, round⟩ := yields_update (ready_of_reachable hs) hc () _ ((c.told.same s).trans ends)
  rw [hl] at seen
  -- the halt is neither the call nor the beginning of the update
  have elsewhere : ∀ {x : Moment} {l before : List Moment}, x.works = false →
      before ++ k :: after = x :: l → ∃ inside, before = x :: inside ∧ l = inside ++ k :: after := by
    intro x l before idle same
    cases before with
    | nil =>
      rw [← (List.cons.inj same).1, halts.works] at idle
      cases idle
    | cons y inside =>
      obtain ⟨rfl, rfl⟩ := List.cons.inj same
      exact ⟨inside, rfl, rfl⟩
  obtain ⟨before, rfl, rfl⟩ := elsewhere rfl seen
  rcases round with none | ⟨inside, same, halting⟩
  · cases (List.append_eq_nil_iff.mp none).2
  obtain ⟨before, rfl, rfl⟩ := elsewhere rfl same
  obtain ⟨-, inner, u, effect, later⟩ := halting.trace.split
  obtain ⟨idle, still⟩ := later.still (fun _ h => h) halts.idle
  refine
    { toSilences := ((silences_of_halting halting halts).cons rfl).cons rfl
      same := fun c => c.told.same
      idle := idle
      still := fun j hj => ⟨still j hj, Bool.eq_false_iff.mpr fun works => ?_⟩
      heard := ?_ }
  · obtain ⟨front, back, rfl⟩ := List.append_of_mem hj
    have running := Moment.running_of_works later works
    rw [still j hj] at running
    cases running
  · have told := ((Trace.start.moment inner effect).trans later).heard fun _ h => h
    rw [List.filterMap_append, List.nil_append,
      List.filterMap_cons_none (Moment.unspoken_of_works halts.works).2] at told
    exact told

/-- Someone stops everything at a message, and another one waits for a message; two are queued. -/
def curfew (wanted : String) : Session :=
  (fresh .usual (Generator.ofSeed 0) 5).after
    [.register (Spawn.new "a"), .register (Spawn.new "b"),
      .addBehaviors "a" ⟨[⟨0, .message "m", [.action .stopAll]⟩], [], 1⟩,
      .addBehaviors "b" ⟨[⟨1, .message wanted, []⟩], [], 2⟩,
      .script .start, .broadcast "m", .broadcast "n"]

/-- The other one waits for the same message, so its delivery is broken off there, and hosts are told
    of neither message. -/
theorem halted_curfew : ∃ before k after,
    ((Call.script (.updateBy 0)).watched (curfew "m")).2 = before ++ k :: after ∧
      (curfew "m").Halted before k after ((Call.script (.updateBy 0)).run.last (curfew "m")) ∧
      after.filterMap Moment.visited? = ["b"] ∧
      ((Call.script (.updateBy 0)).run.last (curfew "m")).heard = [] := by
  have seen := Moment.split_at ((Call.script (.updateBy 0)).watched (curfew "m")).2 7
    (by decide +kernel)
  exact ⟨_, _, _, seen, halted_of_reachable ((Reachable.fresh _ _ _).after _ (by decide +kernel)) rfl
    (by decide +kernel) seen ⟨by decide +kernel, by decide +kernel⟩, by decide +kernel,
    by decide +kernel⟩

/-- The other one waits for the second message.  It is not run, but hosts are told of both messages,
    although the delivery of the second begins only after the halt. -/
theorem unspared_curfew : ∃ before k after,
    ((Call.script (.updateBy 0)).watched (curfew "n")).2 = before ++ k :: after ∧
      k.Halts after ((Call.script (.updateBy 0)).run.last (curfew "n")) ∧
      before.filterMap Moment.begun? = ["m"] ∧ after.filterMap Moment.begun? = ["n"] ∧
      k.session.heard = [] ∧
      ((Call.script (.updateBy 0)).run.last (curfew "n")).heard = [("m", 1), ("n", 0)] := by
  exact ⟨_, _, _, Moment.split_at _ 7 (by decide +kernel), ⟨by decide +kernel, by decide +kernel⟩,
    by decide +kernel, by decide +kernel, by decide +kernel, by decide +kernel⟩

end Session

end BlockStage
