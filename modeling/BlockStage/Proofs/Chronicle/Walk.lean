/-
  What walks tell: the order of start scripts and the end of their phase.

  1. **Accounts (`Phase.Walk.accounts`)** — start scripts begin in the order of the queue, and all
     that have begun are over but for the one that is paused, if any.

  2. **Splitting (`Phase.Walk.split`)** — a walk can be split at an update, where a start script
     begins, and where the phase is completed, so the accounts hold up to there.

  3. **The end (`Phase.Walk.early`, `Phase.Walk.of_update`, `Phase.Walk.completes`)** — until the
     phase is over it is not completed, no looping behavior is launched, and every update looks at
     the paused start script; and it is over only by having been completed, after which it is not
     completed again.
-/
import BlockStage.Proofs.Chronicle.Starting

namespace BlockStage

open Session (Trace)

namespace Moment

/-- Does an idle session begin to run at a moment? -/
def begins : Moment → Bool
  | ⟨.start, _⟩ => true
  | _ => false

/-- The start script that begins at a moment. -/
def opened? : Moment → Option (String × Behavior)
  | ⟨.opened entity b, _⟩ => some (entity, b)
  | _ => none

/-- The start script that is over at a moment. -/
def closed? : Moment → Option (String × Nat)
  | ⟨.closed entity behavior, _⟩ => some (entity, behavior)
  | _ => none

/-- Can the phase be moved on: is there an update, does a start script begin, or is the phase
    completed? -/
def moves : Moment → Bool
  | ⟨.update, _⟩ => true
  | ⟨.opened _ _, _⟩ => true
  | ⟨.complete, _⟩ => true
  | _ => false

/-- The phase is not completed at a moment, and no looping behavior is launched. -/
def Early : Moment → Prop
  | ⟨.complete, _⟩ => False
  | ⟨.launch _ b, _⟩ => b.trigger ≠ .forever
  | _ => True

end Moment

/-- What start scripts are told apart by. -/
def Phase.key (e : String × Behavior) : String × Nat := (e.1, e.2.id)

namespace Phase

variable {p q : Phase} {l : List Moment} {k : Moment}

/-- The start scripts that have not begun. -/
def pending : Phase → List (String × Behavior)
  | .ready rest => rest
  | .paused _ rest => rest
  | .ended => []

/-- The start script that has begun and is not over. -/
def unfinished : Phase → List (String × Nat)
  | .paused t _ => [t.key]
  | _ => []

/-- What scripts at work tell of the phase: nothing. -/
theorem quiet_of_scripted (h : ∀ k ∈ l, k.occasion.Scripted) :
    l.filterMap Moment.opened? = [] ∧ l.filterMap Moment.closed? = [] ∧ ∀ k ∈ l, k.Early := by
  have quiet : ∀ k : Moment, k.occasion.Scripted →
      k.opened? = none ∧ k.closed? = none ∧ k.Early := by
    rintro ⟨o, s⟩ ho
    cases o with
    | launch id b =>
      refine ⟨rfl, rfl, fun loops => ?_⟩
      have starts : Play.startsClone b.trigger = true := ho
      rw [loops] at starts
      cases starts
    | work | clone | post => exact ⟨rfl, rfl, trivial⟩
    | _ => exact ho.elim
  exact ⟨List.filterMap_eq_nil_iff.mpr fun k hk => (quiet k (h k hk)).1,
    List.filterMap_eq_nil_iff.mpr fun k hk => (quiet k (h k hk)).2.1,
    fun k hk => (quiet k (h k hk)).2.2⟩

/-- Neither does what a phase admits. -/
theorem quiet_of_admits {o : Occasion} {s : Session} (h : p.Admits o) :
    Moment.opened? ⟨o, s⟩ = none ∧ Moment.closed? ⟨o, s⟩ = none := by
  cases o with
  | opened | closed => exact h.elim
  | _ => exact ⟨rfl, rfl⟩

/-- What moments tell of the start scripts: they begin in order, and what has begun is over but for
    the one that is unfinished. -/
structure Accounts (p : Phase) (l : List Moment) (q : Phase) : Prop where
  order : l.filterMap Moment.opened? ++ q.pending = p.pending
  finish : p.unfinished ++ (l.filterMap Moment.opened?).map key
    = l.filterMap Moment.closed? ++ q.unfinished

/-- But for one at most, the start scripts that have begun so far are over. -/
def Lone (p : Phase) (l : List Moment) : Prop :=
  ∃ still, p.unfinished ++ (l.filterMap Moment.opened?).map key
    = l.filterMap Moment.closed? ++ still ∧ still.length ≤ 1

namespace Walk

/-- A run of a start script, told by what it yields. -/
theorem ran {t : Task} {s u : Session} {left : Option Task} {body : List Moment}
    {c : Chronicle (Option Task)} (runs : c s = (.ok left u, body))
    (yields : c.Yields s fun left u l => c s = (.ok left u, l) ∧
      Trace Occasion.Scripted s l u ∧ ∀ v ∈ left, v.key = t.key) :
    (∀ k ∈ body, k.occasion.Scripted) ∧ ∀ v ∈ left, v.key = t.key := by
  obtain ⟨-, trace, key⟩ := yields left u (congrArg Prod.fst runs)
  rw [runs] at trace
  exact ⟨trace.kind, key⟩

/-- What a run of a start script tells: where it is left, and whether it is over. -/
theorem accounts_left {entity : String} {behavior : Nat} {rest : List (String × Behavior)}
    {left : Option Task} {u : Session} {body : List Moment}
    (scripted : ∀ k ∈ body, k.occasion.Scripted) (key : ∀ v ∈ left, v.key = (entity, behavior))
    (h : Accounts (.after rest left) l q) :
    (body ++ ⟨.left entity behavior left, u⟩ :: l).filterMap Moment.opened? ++ q.pending = rest ∧
      (entity, behavior) :: ((body ++ ⟨.left entity behavior left, u⟩ :: l).filterMap
          Moment.opened?).map Phase.key
        = (body ++ ⟨.left entity behavior left, u⟩ :: l).filterMap Moment.closed?
          ++ q.unfinished := by
  obtain ⟨unopened, unclosed, -⟩ := quiet_of_scripted scripted
  rw [List.filterMap_append, List.filterMap_append, unopened, unclosed, List.nil_append,
    List.nil_append]
  cases left with
  | some t =>
    have same : t.key = (entity, behavior) := key t rfl
    refine ⟨h.order, ?_⟩
    rw [← same]
    exact h.finish
  | none => exact ⟨h.order, congrArg ((entity, behavior) :: ·) h.finish⟩

/-- **Start scripts begin in order, and one is over before the next begins.** -/
theorem accounts (h : Walk p l q) : Accounts p l q := by
  induction h with
  | stay p => exact ⟨rfl, (List.append_nil _)⟩
  | @opened entity b rest s u left body l q running runs _ ih =>
    obtain ⟨scripted, key⟩ := ran runs (Chronicle.yields_slice _ _)
    obtain ⟨order, finish⟩ := accounts_left (u := u) scripted key ih
    exact ⟨congrArg ((entity, b) :: ·) order, finish⟩
  | @fetched t rest s s' u left body l q runs _ ih =>
    obtain ⟨scripted, key⟩ := ran runs (Chronicle.yields_takeUp _ _)
    exact ⟨(accounts_left (u := u) scripted key ih).1, (accounts_left (u := u) scripted key ih).2⟩
  | complete running _ ih => exact ⟨ih.order, ih.finish⟩
  | call waits _ ih => exact ⟨ih.order, ih.finish⟩
  | @other p o s l q admits _ ih =>
    have quiet := quiet_of_admits (s := s) admits
    refine ⟨?_, ?_⟩
    · rw [List.filterMap_cons_none quiet.1]
      exact ih.order
    · rw [List.filterMap_cons_none quiet.1, List.filterMap_cons_none quiet.2]
      exact ih.finish

/-- While a run of a start script lasts, that one is unfinished; then comes what follows. -/
theorem lone_left {entity : String} {behavior : Nat} {rest : List (String × Behavior)}
    {left : Option Task} {u : Session} {body front : List Moment}
    (scripted : ∀ k ∈ body, k.occasion.Scripted) (key : ∀ v ∈ left, v.key = (entity, behavior))
    (ih : ∀ front, front <+: l → Lone (.after rest left) front)
    (h : front <+: body ++ ⟨.left entity behavior left, u⟩ :: l) :
    ∃ still, (entity, behavior) :: (front.filterMap Moment.opened?).map Phase.key
      = front.filterMap Moment.closed? ++ still ∧ still.length ≤ 1 := by
  -- a part of the run tells nothing of the phase
  have within : ∀ {m : List Moment}, (∀ k ∈ m, k.occasion.Scripted) →
      ∃ still, (entity, behavior) :: (m.filterMap Moment.opened?).map Phase.key
        = m.filterMap Moment.closed? ++ still ∧ still.length ≤ 1 := by
    intro m hm
    obtain ⟨unopened, unclosed, -⟩ := quiet_of_scripted hm
    rw [unopened, unclosed]
    exact ⟨_, rfl, Nat.le_refl 1⟩
  rcases List.prefix_or_prefix_of_prefix h (List.prefix_append body _) with inside | ⟨tail, rfl⟩
  · exact within fun k hk => scripted k (inside.subset hk)
  rcases List.prefix_cons_iff.mp ((List.prefix_append_right_inj body).mp h) with rfl | ⟨m, rfl, hm⟩
  · rw [List.append_nil]
    exact within scripted
  · obtain ⟨unopened, unclosed, -⟩ := quiet_of_scripted scripted
    obtain ⟨still, lone, short⟩ := ih m hm
    rw [List.filterMap_append, List.filterMap_append, unopened, unclosed, List.nil_append,
      List.nil_append]
    cases left with
    | some t =>
      have same : t.key = (entity, behavior) := key t rfl
      refine ⟨still, ?_, short⟩
      rw [← same]
      exact lone
    | none => exact ⟨still, congrArg ((entity, behavior) :: ·) lone, short⟩

/-- At the beginning at most the start script that is paused is unfinished. -/
theorem lone_nil (p : Phase) : Lone p [] := by
  cases p with
  | paused t rest => exact ⟨[t.key], rfl, Nat.le_refl 1⟩
  | _ => exact ⟨[], rfl, Nat.zero_le 1⟩

/-- What holds of a moment and what follows holds at any time. -/
theorem lone_cons (h : ∀ tail, tail <+: l → Lone p (k :: tail)) :
    ∀ front, front <+: k :: l → Lone p front := by
  intro front hf
  rcases List.prefix_cons_iff.mp hf with rfl | ⟨tail, rfl, ht⟩
  · exact lone_nil p
  · exact h tail ht

/-- **At any time all start scripts that have begun are over but for one at most.** -/
theorem lone (h : Walk p l q) : ∀ front, front <+: l → Lone p front := by
  induction h with
  | stay p =>
    intro front hf
    rw [List.prefix_nil.mp hf]
    exact lone_nil p
  | @opened entity b rest s u left body l q running runs _ ih =>
    obtain ⟨scripted, key⟩ := ran runs (Chronicle.yields_slice _ _)
    exact lone_cons fun tail ht => lone_left (u := u) scripted key ih ht
  | @fetched t rest s s' u left body l q runs _ ih =>
    obtain ⟨scripted, key⟩ := ran runs (Chronicle.yields_takeUp _ _)
    -- the one that is taken up has begun before
    have ended : ∀ run, run <+: body ++ ⟨.left t.entity t.behavior left, u⟩ :: l →
        Lone (.paused t rest) run := fun run hr => lone_left (u := u) scripted key ih hr
    exact lone_cons (lone_cons ended)
  | complete running _ ih => exact lone_cons ih
  | call waits _ ih => exact lone_cons ih
  | @other p o s l q admits _ ih =>
    refine lone_cons fun tail ht => ?_
    have quiet := quiet_of_admits (s := s) admits
    rw [Lone, List.filterMap_cons_none quiet.1, List.filterMap_cons_none quiet.2]
    exact ih tail ht

/-- Once the phase is over it stays so. -/
theorem eq_ended (h : Walk .ended l q) : q = .ended := by
  generalize hp : Phase.ended = p at h
  induction h with
  | stay => rfl
  | opened | fetched | complete => cases hp
  | call _ _ ih => exact ih hp
  | other _ _ ih => exact ih hp

/-- And it is not completed again. -/
theorem never_again (h : Walk .ended l q) : ∀ k ∈ l, k.occasion ≠ .complete := by
  generalize hp : Phase.ended = p at h
  induction h with
  | stay => exact fun _ hk => (List.not_mem_nil hk).elim
  | opened | fetched | complete => cases hp
  | call _ _ ih => exact List.forall_mem_cons.mpr ⟨fun same => (by cases same), ih hp⟩
  | other admits _ ih =>
    refine List.forall_mem_cons.mpr ⟨?_, ih hp⟩
    rintro rfl
    exact admits

/-- What holds of scripts at work, wherever a start script is left, and of what follows, holds along
    a run of a start script. -/
theorem forall_left {P : Moment → Prop} {entity : String} {behavior : Nat} {left : Option Task}
    {u : Session} {body : List Moment} (scripted : ∀ k ∈ body, k.occasion.Scripted)
    (work : ∀ k : Moment, k.occasion.Scripted → P k)
    (ends : ∀ left, P ⟨.left entity behavior left, u⟩) (h : ∀ k ∈ l, P k) :
    ∀ k ∈ body ++ ⟨.left entity behavior left, u⟩ :: l, P k :=
  List.forall_mem_append.mpr ⟨fun k hk => work k (scripted k hk),
    List.forall_mem_cons.mpr ⟨ends left, h⟩⟩

/-- No session is started along a walk. -/
theorem never_begins (h : Walk p l q) : ∀ k ∈ l, k.begins = false := by
  have work : ∀ k : Moment, k.occasion.Scripted → k.begins = false := by
    rintro ⟨o, s⟩ ho
    cases o with
    | start => exact ho.elim
    | _ => rfl
  have ends : ∀ entity behavior u left,
      Moment.begins ⟨.left entity behavior left, u⟩ = false := by
    intro _ _ _ left
    cases left <;> rfl
  induction h with
  | stay => exact fun _ hk => (List.not_mem_nil hk).elim
  | opened running runs _ ih =>
    obtain ⟨scripted, -⟩ := ran runs (Chronicle.yields_slice _ _)
    exact List.forall_mem_cons.mpr ⟨rfl, forall_left scripted work (ends _ _ _) ih⟩
  | fetched runs _ ih =>
    obtain ⟨scripted, -⟩ := ran runs (Chronicle.yields_takeUp _ _)
    exact List.forall_mem_cons.mpr ⟨rfl, List.forall_mem_cons.mpr ⟨rfl,
      forall_left scripted work (ends _ _ _) ih⟩⟩
  | complete _ _ ih => exact List.forall_mem_cons.mpr ⟨rfl, ih⟩
  | call _ _ ih => exact List.forall_mem_cons.mpr ⟨rfl, ih⟩
  | @other p o s l q admits _ ih =>
    refine List.forall_mem_cons.mpr ⟨?_, ih⟩
    cases o with
    | start => exact admits.elim
    | _ => rfl

/-- **Until the phase is over** it is not completed and no looping behavior is launched. -/
theorem early (h : Walk p l q) (hq : q ≠ .ended) : ∀ k ∈ l, k.Early := by
  have work : ∀ k : Moment, k.occasion.Scripted → k.Early :=
    fun k hk => (quiet_of_scripted (l := [k]) (List.forall_mem_singleton.mpr hk)).2.2 k
      List.mem_cons_self
  have ends : ∀ entity behavior u left, Moment.Early ⟨.left entity behavior left, u⟩ := by
    intro _ _ _ left
    cases left <;> trivial
  induction h with
  | stay => exact fun _ hk => (List.not_mem_nil hk).elim
  | opened running runs _ ih =>
    obtain ⟨scripted, -⟩ := ran runs (Chronicle.yields_slice _ _)
    exact List.forall_mem_cons.mpr ⟨trivial, forall_left scripted work (ends _ _ _) (ih hq)⟩
  | fetched runs _ ih =>
    obtain ⟨scripted, -⟩ := ran runs (Chronicle.yields_takeUp _ _)
    exact List.forall_mem_cons.mpr ⟨trivial, List.forall_mem_cons.mpr ⟨trivial,
      forall_left scripted work (ends _ _ _) (ih hq)⟩⟩
  | complete _ next _ => exact absurd next.eq_ended hq
  | call _ _ ih => exact List.forall_mem_cons.mpr ⟨trivial, ih hq⟩
  | @other p o s l q admits next ih =>
    refine List.forall_mem_cons.mpr ⟨?_, ih hq⟩
    cases o with
    | launch entity b =>
      intro loops
      obtain rfl := admits loops
      exact hq next.eq_ended
    | complete => exact admits
    | _ => trivial

/-- What does not move the phase on is passed before it is moved on. -/
theorem pass {m before after : List Moment} (hm : ∀ x ∈ m, x.moves = false) (hk : k.moves = true)
    (h : m ++ l = before ++ k :: after) :
    ∃ front, before = m ++ front ∧ l = front ++ k :: after := by
  rcases List.append_eq_append_iff.mp h with ⟨front, rfl, rest⟩ | ⟨back, rfl, rest⟩
  · exact ⟨front, rfl, rest⟩
  · cases back with
    | nil => exact ⟨[], (List.append_nil _).symm ▸ (List.append_nil _).symm, rest.symm⟩
    | cons x back =>
      obtain rfl := (List.cons.inj rest).1
      have still := hm k (List.mem_append_right _ List.mem_cons_self)
      exact absurd hk (Bool.eq_false_iff.mp still)

/-- A run of a start script does not move the phase on while it lasts. -/
theorem still_left {entity : String} {behavior : Nat} {left : Option Task} {u : Session}
    {body : List Moment} (scripted : ∀ k ∈ body, k.occasion.Scripted) :
    ∀ k ∈ body ++ [⟨.left entity behavior left, u⟩], k.moves = false := by
  refine forall_left scripted ?_ (fun left => by cases left <;> rfl)
    fun _ hk => (List.not_mem_nil hk).elim
  rintro ⟨o, s⟩ ho
  cases o with
  | update | opened | complete => exact ho.elim
  | _ => rfl

/-- A walk is split at its first moment or later. -/
theorem split_cons {x : Moment} {before after : List Moment} (here : Walk p (x :: l) q)
    (hl : x :: l = before ++ k :: after)
    (later : ∀ rest, l = rest ++ k :: after →
      ∃ r, Walk p (x :: rest) r ∧ Walk r (k :: after) q) :
    ∃ r, Walk p before r ∧ Walk r (k :: after) q := by
  cases before with
  | nil => exact ⟨p, .stay p, List.nil_append (k :: after) ▸ hl ▸ here⟩
  | cons y rest =>
    obtain ⟨rfl, tail⟩ := List.cons.inj hl
    exact later rest tail

/-- **At an update, where a start script begins, and where the phase is completed, a walk can be
    split.** -/
theorem split (h : Walk p l q) {before after : List Moment} (hl : l = before ++ k :: after)
    (hk : k.moves = true) : ∃ r, Walk p before r ∧ Walk r (k :: after) q := by
  induction h generalizing before with
  | stay => exact absurd hl.symm (List.append_ne_nil_of_right_ne_nil _ (List.cons_ne_nil _ _))
  | @opened entity b rest s u left body l q running runs next ih =>
    refine split_cons (.opened running runs next) hl fun before tail => ?_
    obtain ⟨scripted, -⟩ := ran runs (Chronicle.yields_slice _ _)
    rw [List.append_cons] at tail
    obtain ⟨front, rfl, rest⟩ := pass (still_left scripted) hk tail
    obtain ⟨r, first, last⟩ := ih rest
    refine ⟨r, ?_, last⟩
    rw [List.append_assoc]
    exact .opened running runs first
  | @fetched t rest s s' u left body l q runs next ih =>
    refine split_cons (.fetched runs next) hl fun before tail => ?_
    obtain ⟨scripted, -⟩ := ran runs (Chronicle.yields_takeUp _ _)
    have still : ∀ x ∈ (⟨.fetched t, s⟩ ::
        (body ++ [⟨.left t.entity t.behavior left, u⟩]) : List Moment), x.moves = false :=
      List.forall_mem_cons.mpr ⟨rfl, still_left scripted⟩
    rw [List.append_cons] at tail
    obtain ⟨front, rfl, rest⟩ := pass still hk tail
    obtain ⟨r, first, last⟩ := ih rest
    refine ⟨r, ?_, last⟩
    rw [List.cons_append, ← List.append_cons]
    exact .fetched runs first
  | complete running next ih =>
    refine split_cons (.complete running next) hl fun before tail => ?_
    obtain ⟨r, first, last⟩ := ih tail
    exact ⟨r, .complete running first, last⟩
  | call waits next ih =>
    refine split_cons (.call waits next) hl fun before tail => ?_
    obtain ⟨r, first, last⟩ := ih tail
    exact ⟨r, .call waits first, last⟩
  | @other p o s l q admits next ih =>
    refine split_cons (.other admits next) hl fun before tail => ?_
    obtain ⟨r, first, last⟩ := ih tail
    exact ⟨r, .other admits first, last⟩

/-- A start script begins only when no other is under way, and in its turn. -/
theorem of_opened {entity : String} {b : Behavior} {u : Session}
    (h : Walk p (⟨.opened entity b, u⟩ :: l) q) : ∃ rest, p = .ready ((entity, b) :: rest) := by
  cases h with
  | opened running runs next => exact ⟨_, rfl⟩
  | other admits next => exact admits.elim

/-- Until the phase is over, every update looks at the start script that is paused; if its entity
    has been stopped or has left, then it is over at once. -/
theorem of_update {u : Session} (h : Walk p (⟨.update, u⟩ :: l) q) (hp : p ≠ .ended) :
    ∃ t rest v m, p = .paused t rest ∧ l = ⟨.fetched t, v⟩ :: m ∧
      (v.mayRun t.entity = false → ∃ w m', m = ⟨.closed t.entity t.behavior, w⟩ :: m') := by
  cases h with
  | @fetched t rest v _ w left body m q runs next =>
    refine ⟨t, rest, v, _, rfl, rfl, fun gone => ?_⟩
    have still : ({ v with scheduler := { v.scheduler with startTask := none } } : Session).mayRun
        t.entity = false := gone
    have looked := (Chronicle.takeUp_of_mayRun still).symm.trans runs
    obtain ⟨ends, rfl⟩ := Prod.mk.inj looked
    obtain ⟨rfl, rfl⟩ := EStateM.Result.ok.inj ends
    exact ⟨_, m, rfl⟩
  | other admits next => exact absurd admits hp

/-- The phase is completed only when no start script is left. -/
theorem of_complete {u : Session} (h : Walk p (⟨.complete, u⟩ :: l) q) :
    p = .ready [] ∧ Walk .ended l q := by
  cases h with
  | complete running next => exact ⟨rfl, next⟩
  | other admits next => exact admits.elim

/-- A phase that is over in the end has been completed. -/
theorem completes (h : Walk p l .ended) (hp : p ≠ .ended) : ∃ k ∈ l, k.occasion = .complete := by
  have going : ∀ (rest : List (String × Behavior)) (left : Option Task),
      after rest left ≠ .ended := by
    intro rest left
    cases left <;> exact fun same => by cases same
  generalize hq : Phase.ended = q at h
  induction h with
  | stay => exact absurd hq.symm hp
  | opened running runs _ ih =>
    obtain ⟨k, hk, same⟩ := ih (going _ _) hq
    exact ⟨k, List.mem_cons_of_mem _ (List.mem_append_right _ (List.mem_cons_of_mem _ hk)), same⟩
  | fetched runs _ ih =>
    obtain ⟨k, hk, same⟩ := ih (going _ _) hq
    exact ⟨k, List.mem_cons_of_mem _ (List.mem_cons_of_mem _
      (List.mem_append_right _ (List.mem_cons_of_mem _ hk))), same⟩
  | complete => exact ⟨_, List.mem_cons_self, rfl⟩
  | call _ _ ih =>
    obtain ⟨k, hk, same⟩ := ih hp hq
    exact ⟨k, List.mem_cons_of_mem _ hk, same⟩
  | other _ _ ih =>
    obtain ⟨k, hk, same⟩ := ih hp hq
    exact ⟨k, List.mem_cons_of_mem _ hk, same⟩

end Walk

end Phase

end BlockStage
