/-
  How chronicles move the start phase on.

  1. **Runs of start scripts** — a start script runs till it pauses or is over, and is seen at work
     and making clones only (`Chronicle.yields_slice`).  A paused one is looked at first
     (`Chronicle.yields_takeUp`).

  2. **Starting (`Chronicle.yields_runStarts`)** — along the queue: the next start script begins only
     after the one before is over.

  3. **Updates (`Chronicle.leads_updateBy`)** — an update takes the paused start script up, lets
     those after it begin, and then does what does not move the phase on; looping behaviors are
     launched only if the phase is over.
-/
import BlockStage.Proofs.Chronicle.Phase

namespace BlockStage

open Session (Trace)

namespace Chronicle

variable {α β γ : Type} {s : Session} {p : Phase}

/-! ## Runs of start scripts -/

theorem bind_assoc (c : Chronicle α) (f : α → Chronicle β) (g : β → Chronicle γ) (s : Session) :
    (c >>= f >>= g) s = (c >>= fun a => f a >>= g) s := by
  cases hc : (c s).1 with
  | error e t =>
    rw [bind_of_error hc]
    exact (bind_of_error (congrArg Prod.fst (bind_of_error hc))).trans
      (congrArg (fun l => (EStateM.Result.error e t, l)) (congrArg Prod.snd (bind_of_error hc)))
  | ok a t =>
    have first := bind_of_ok (f := f) hc
    rw [bind_of_ok hc]
    cases hf : (f a t).1 with
    | error e u =>
      rw [bind_of_error hf, bind_of_error ((congrArg Prod.fst first).trans hf), first]
    | ok b u =>
      rw [bind_of_ok hf, bind_of_ok ((congrArg Prod.fst first).trans hf), first, List.append_assoc]

/-- A run of a start script is seen at work and making clones only, and it is the same script that
    is paused. -/
theorem yields_slice (t : Task) (s : Session) :
    Yields (slice makeClone t) s fun left u l => slice makeClone t s = (.ok left u, l) ∧
      Trace Occasion.Scripted s l u ∧ ∀ v ∈ left, v.key = t.key := by
  have scripted : ∀ o : Occasion, o.Scripted → o.Scripted := fun _ h => h
  have told := Yields.of_told (told_slice scripted (told_makeClone scripted) t)
    (Session.running_of_paused Play.makeClone t s)
  refine Yields.and (fun left u h => Prod.ext h rfl)
    (told.mono fun left u l h => ⟨h.2, fun v hv => ?_⟩)
  exact (h.1 v hv).1

/-- So is what happens when one is taken up again. -/
theorem yields_takeUp (t : Task) (s : Session) :
    Yields (takeUp t) s fun left u l => takeUp t s = (.ok left u, l) ∧
      Trace Occasion.Scripted s l u ∧ ∀ v ∈ left, v.key = t.key := by
  refine Yields.and (fun left u h => Prod.ext h rfl) (.look ?_)
  have go : ∀ (waits : Bool) (v : Session),
      Yields (if waits then Pure.pure (some t) else slice makeClone t) v fun left u l =>
        Trace Occasion.Scripted v l u ∧ ∀ v ∈ left, v.key = t.key := by
    intro waits v
    cases waits with
    | true => exact .pure ⟨.start, fun u hu => Option.some.inj hu ▸ rfl⟩
    | false => exact (yields_slice t v).mono fun _ _ _ h => h.2
  dsimp only
  cases may : s.mayRun t.entity with
  | false => exact go false s
  | true =>
    have looked : Yields (look t) s fun _ u l => Trace Occasion.Scripted s l u := by
      intro ready u h
      have told := tells_look (A := Occasion.Scripted) (fun _ h => h) t
      have trace := told.trace s may
      rw [Play.last_of_ok ((told.same s).symm.trans h)] at trace
      exact trace
    have answered : Yields (do return !(← look t)) s fun _ u l => Trace Occasion.Scripted s l u :=
      looked.bind fun ready u l h => .pure (by rwa [List.append_nil])
    exact answered.bind fun waits u l h => (go waits u).mono fun left v m k => ⟨h.trans k.1, k.2⟩

/-- A start script whose entity has been stopped or has left is over at the next look, and nothing
    of it is done. -/
theorem takeUp_of_mayRun {t : Task} (h : s.mayRun t.entity = false) :
    takeUp t s = (.ok none s, []) := by
  have asked : (host makeClone t.entity t.behavior).alive s = (.ok false s, []) := by
    show ((do
      if s.mayRun t.entity then mark (.work t.entity t.behavior .step)
      return s.mayRun t.entity : Chronicle Bool) s) = _
    rw [h]
    rfl
  have skipped : (host makeClone t.entity t.behavior).run t.frames s = (.ok .finished s, []) := by
    rw [Host.run.eq_def, bind_of_ok (congrArg Prod.fst asked), asked]
    rfl
  show (if s.mayRun t.entity then _ else _ : Chronicle (Option Task)) s = _
  rw [h]
  show slice makeClone t s = _
  rw [slice, bind_of_ok (congrArg Prod.fst skipped), skipped]
  rfl

/-! ## The start phase -/

/-- Scripts at work do not move the phase on. -/
theorem lingers_scripted {t : Session} {l : List Moment} (h : Trace Occasion.Scripted s l t) :
    s.Lingers t := (h.mono fun _ ho => ho.admitted .ended).lingers

/-- No looping behavior is active, and a running session is in its start phase. -/
def Starts (s : Session) : Prop :=
  s.loopsActive = false ∧ (s.running = true → s.scheduler.starting = true)

theorem Starts.lingers {t : Session} (h : Starts s) (k : s.Lingers t) : Starts t := by
  refine ⟨k.off h.1, fun running => ?_⟩
  obtain ⟨before, same⟩ := k.phase running
  rw [same]
  exact h.2 before

/-- What follows a run of a start script: where it has paused is noted, or those after it begin. -/
def leave (entity : String) (behavior : Nat) (rest : List (String × Behavior)) :
    Option Task → Chronicle Unit
  | some t => park t
  | none => do
    mark (.closed entity behavior)
    runStarts rest

theorem yields_left (entity : String) (behavior : Nat) {rest : List (String × Behavior)}
    (others : ∀ u, Starts u → Yields (runStarts rest) u fun _ v l => (Phase.ready rest).Leads l v)
    (left : Option Task) (starts : Starts s)
    (queue : s.running = true → s.scheduler.startQueue = rest) :
    Yields (leave entity behavior rest left) s fun _ v l =>
      ∃ l', l = ⟨.left entity behavior left, s⟩ :: l' ∧ (Phase.after rest left).Leads l' v := by
  cases left with
  | some t =>
    refine .seen ⟨[], rfl, .paused t rest, .stay _, starts.1, fun running => ?_⟩
    exact ⟨starts.2 running, rfl, queue running⟩
  | none => exact .marked ((others s starts).mono fun _ v l h => ⟨l, rfl, h⟩)

/-- **Start scripts begin one after the other**, each when the one before is over. -/
theorem yields_runStarts (l : List (String × Behavior)) (starts : Starts s) :
    Yields (runStarts l) s fun _ t log => (Phase.ready l).Leads log t := by
  induction l generalizing s with
  | nil =>
    refine .ask ?_
    cases running : s.running with
    | false => exact .silent ⟨.ready [], .stay _, starts.1, running⟩
    | true =>
      refine .seen ⟨.ended, .complete running (.stay _), fun _ => ?_⟩
      rw [Play.finishStart, Play.foldl_renewTemplate]
      rfl
  | cons e rest ih =>
    obtain ⟨entity, b⟩ := e
    refine .ask ?_
    cases running : s.running with
    | false => exact .silent ⟨.ready _, .stay _, starts.1, running⟩
    | true =>
      refine Yields.bind (Q := fun _ t k =>
        t = { s with scheduler := { s.scheduler with startQueue := rest } }
          ∧ k = [⟨.opened entity b, s⟩]) (.seen ⟨rfl, rfl⟩) ?_
      rintro _ _ _ ⟨rfl, rfl⟩
      refine (yields_slice _ _).bind ?_
      rintro left u body ⟨runs, trace, -⟩
      have lingers := lingers_scripted trace
      have opened : Starts { s with scheduler := { s.scheduler with startQueue := rest } } := starts
      have ended := yields_left entity b.id (fun u hu => ih hu) left
        (opened.lingers lingers) fun running => by rw [(lingers.phase running).2]
      refine ended.mono ?_
      rintro _ v _ ⟨log, rfl, q, walk, fits⟩
      exact ⟨q, .opened running runs walk, fits⟩

/-- The start phase goes on with the start script that is paused. -/
theorem advanceStart_of_paused {t : Task} (running : s.running = true)
    (starting : s.scheduler.starting = true) (paused : s.scheduler.startTask = some t) :
    advanceStart s = (do
      seen (.fetched t) (Play.schedule fun q => { q with startTask := none })
      leave t.entity t.behavior s.scheduler.startQueue (← takeUp t)) s := by
  -- the look comes first, and then the script is left as it is or goes on
  have waiting : ∀ u : Session, u.mayRun t.entity = s.mayRun t.entity →
      (do
        let waits ← if s.mayRun t.entity then (do return !(← look t)) else pure false
        if waits then park t else continueStart t s.scheduler.startQueue) u =
      (takeUp t >>= leave t.entity t.behavior s.scheduler.startQueue) u := by
    intro u may
    refine Eq.trans ?_ (bind_assoc get _ _ u).symm
    show _ = ((if u.mayRun t.entity then _ else _ : Chronicle (Option Task)) >>= _) u
    rw [may]
    cases s.mayRun t.entity with
    | false => rfl
    | true =>
      refine Eq.trans ?_ (bind_assoc (do return !(← look t)) _ _ u).symm
      refine congrArg (fun f => ((do return !(← look t)) >>= f : Chronicle Unit) u) ?_
      funext waits
      cases waits <;> rfl
  have unfolded : advanceStart s = (do
      seen (.fetched t) (Play.schedule fun q => { q with startTask := none })
      let waits ← if s.mayRun t.entity then (do return !(← look t)) else pure false
      if waits then park t else continueStart t s.scheduler.startQueue) s := by
    rw [advanceStart, get_bind]
    simp only [starting, running, paused]
    rfl
  rw [unfolded]
  exact congrArg (fun r : EStateM.Result Fault Session Unit × List Moment =>
    (r.1, (⟨.fetched t, s⟩ : Moment) :: r.2))
    (waiting { s with scheduler := { s.scheduler with startTask := none } } rfl)

/-- **An update takes the paused start script up again**, and then those after it begin. -/
theorem yields_advanceStart (fits : p.Fits s) (running : s.running = true) :
    Yields advanceStart s fun _ t l => ∀ v, p.Leads (⟨.update, v⟩ :: l) t := by
  cases p with
  | ready rest => exact absurd running (Bool.eq_false_iff.mp fits.2)
  | ended =>
    refine .look ?_
    rw [fits running]
    exact .pure fun v => ⟨.ended, .other rfl (.stay _), fits⟩
  | paused t rest =>
    obtain ⟨off, phase⟩ := fits
    obtain ⟨starting, paused, queue⟩ := phase running
    have going := advanceStart_of_paused running starting paused
    have yields : Yields (do
        seen (.fetched t) (Play.schedule fun q => { q with startTask := none })
        leave t.entity t.behavior s.scheduler.startQueue (← takeUp t)) s
        fun _ u l => ∀ v, (Phase.paused t rest).Leads (⟨.update, v⟩ :: l) u := by
      refine Yields.bind (Q := fun _ u k =>
        u = { s with scheduler := { s.scheduler with startTask := none } }
          ∧ k = [⟨.fetched t, s⟩]) (.seen ⟨rfl, rfl⟩) ?_
      rintro _ _ _ ⟨rfl, rfl⟩
      refine (yields_takeUp _ _).bind ?_
      rintro left u body ⟨runs, trace, -⟩
      have lingers := lingers_scripted trace
      have starts : Starts { s with scheduler := { s.scheduler with startTask := none } } :=
        ⟨off, fun _ => starting⟩
      have ended := yields_left t.entity t.behavior
        (fun u hu => yields_runStarts s.scheduler.startQueue hu) left (starts.lingers lingers)
        fun running => by rw [(lingers.phase running).2]
      refine ended.mono ?_
      rintro _ w _ ⟨log, rfl, q, walk, fits⟩ v
      subst queue
      exact ⟨q, .fetched runs walk, fits⟩
    intro a u h
    rw [going] at h ⊢
    exact yields a u h

/-- Taking back the marks of stopped entities adds no start script. -/
theorem startQueue_begun (s : Session) : s.begun.scheduler.startQueue = s.startScripts :=
  congrArg (List.flatMap fun id => (s.behaviors id fun t => t == .start).map fun b => (id, b))
    (s.stage.sameCast_setAllStopped false).ids

/-- Beginning to run is the beginning of the phase. -/
theorem yields_start (idle : s.running = false) :
    Yields start s fun _ t l => ∃ rest, l = ⟨.start, s⟩ :: rest ∧
      (Phase.ready s.startScripts).Leads rest t := by
  refine .ask ?_
  rw [idle]
  refine Yields.bind (Q := fun _ t l => t = s.begun ∧ l = [⟨.start, s⟩]) (.seen ⟨rfl, rfl⟩) ?_
  rintro _ _ _ ⟨rfl, rfl⟩
  have begun : Yields (runStarts s.begun.scheduler.startQueue) s.begun fun _ t l =>
      (Phase.ready s.begun.scheduler.startQueue).Leads l t := yields_runStarts _ ⟨rfl, fun _ => rfl⟩
  have same : advanceStart s.begun = runStarts s.begun.scheduler.startQueue s.begun := rfl
  intro a t h
  rw [same] at h ⊢
  rw [← startQueue_begun]
  exact ⟨_, rfl, begun a t h⟩

/-- Part of a call that does not move the phase on, and what comes after it. -/
theorem yields_admitted {c : Chronicle α} {play : Play α} {f : α → Chronicle β} (fits : p.Fits s)
    (told : Told p.Admits c play)
    (hf : ∀ a t, p.Fits t → Yields (f a) t fun _ u l => p.Leads l u) :
    Yields (c >>= f) s fun _ u l => p.Leads l u := by
  refine (Yields.of_told told (Play.After.any _ s)).bind ?_
  rintro a t l ⟨-, trace⟩
  exact (hf a t (fits.lingers trace.lingers)).mono fun _ u m h =>
    (Phase.Walk.of_admits trace.kind).leads h

/-- Looping behaviors are launched only when the phase is over. -/
theorem yields_runLoops (fits : p.Fits s) : Yields runLoops s fun _ t l => p.Leads l t := by
  have off : s.loopsActive = false → Yields runLoops s fun _ t l => p.Leads l t := by
    intro off
    refine .look ?_
    rw [off]
    exact .pure ⟨p, .stay p, fits⟩
  cases p with
  | ready rest => exact off fits.1
  | paused t rest => exact off fits.1
  | ended =>
    have told : Told Phase.ended.Admits runLoops Play.runLoops :=
      told_runLoops (fun _ h => h.admitted _) fun _ _ _ _ => rfl
    exact (Yields.of_told told (Play.After.any _ s)).mono fun _ t l h => .admitted h.2 fits

/-- What comes after the start phase in an update does not move it on. -/
theorem yields_delivered (fits : p.Fits s) (inbox : List String) :
    Yields (do
      (liftM (Play.countPhase "forever") : Chronicle Unit)
      if ← Play.ask Session.running then deliverTouches
      Play.countPhase "touching"
      if ← Play.ask Session.running then deliverMessages inbox
      Play.countPhase "messages") s fun _ t l => p.Leads l t := by
  have hA : ∀ o : Occasion, o.Scripted → p.Admits o := fun _ h => h.admitted p
  have counted : ∀ (name : String) (s : Session), p.Fits s →
      Yields (liftM (Play.countPhase name) : Chronicle Unit) s fun _ t l => p.Leads l t :=
    fun name s fits => (Yields.of_told (told_countPhase name) (Play.After.any _ s)).mono
      fun _ t l h => .admitted h.2 fits
  have touches : Told p.Admits deliverTouches Play.deliverTouches :=
    told_deliverTouches hA fun id b target touching loops => by cases touching.symm.trans loops
  have messages : Told p.Admits (deliverMessages inbox) (Play.deliverMessages inbox) :=
    told_deliverMessages hA (fun _ h => h.admitted p) inbox
  have last : ∀ s : Session, p.Fits s → Yields (do
      (liftM (Play.countPhase "touching") : Chronicle Unit)
      if ← Play.ask Session.running then deliverMessages inbox
      Play.countPhase "messages") s fun _ t l => p.Leads l t := by
    intro s fits
    refine yields_admitted fits (told_countPhase _) fun _ t fits => .ask ?_
    cases t.running with
    | false => exact counted _ t fits
    | true => exact yields_admitted fits messages fun _ u fits => counted _ u fits
  refine yields_admitted fits (told_countPhase _) fun _ t fits => .ask ?_
  cases t.running with
  | false => exact last t fits
  | true => exact yields_admitted fits touches fun _ u fits => last u fits

/-- **An update moves the phase on**, if a start script is paused. -/
theorem leads_updateBy (fits : p.Fits s) (dt : Float32) :
    Yields (updateBy dt) s fun _ t l => p.Leads l t := by
  have hA : ∀ (p : Phase) (o : Occasion), o.Scripted → p.Admits o := fun p _ h => h.admitted p
  refine .ask ?_
  cases running : s.running with
  | false => exact .pure ⟨p, .stay p, fits⟩
  | true =>
    refine Yields.bind (Q := fun _ t l => t = { s with inbox := [] } ∧ l = [⟨.update, s⟩])
      (.seen ⟨rfl, rfl⟩) ?_
    rintro inbox _ _ ⟨rfl, rfl⟩
    have taken : p.Fits { s with inbox := [] } := fits.lingers (.same rfl rfl rfl)
    -- neither the clock nor the physics have to do with the phase
    have ticked : Play.After (Play.tick (Single.max dt 0)) { s with inbox := [] } fun _ t =>
        t.running = true ∧ p.Fits t := by
      rw [Play.tick]
      split
      · exact ⟨running, taken.lingers (.same rfl rfl rfl)⟩
      · trivial
    refine .unseen ticked ?_
    rintro _ t ⟨running, fits⟩
    have moved : p.Fits (t.stepPhysics (Single.max dt 0)) := fits.lingers (.same rfl rfl rfl)
    refine .unseen (I := fun u => u.running = true ∧ p.Fits u) ⟨running, moved⟩ ?_
    rintro _ t ⟨running, fits⟩
    refine .unseen (I := fun u => u.running = true ∧ p.Fits u)
      ⟨running, fits.lingers (.same rfl rfl rfl)⟩ ?_
    rintro _ t ⟨running, fits⟩
    refine (yields_advanceStart fits running).bind fun _ u l leads => ?_
    obtain ⟨q, walk, fits⟩ := leads s
    refine Yields.mono (Q := fun _ v m => q.Leads m v) ?_ fun _ v m h => walk.leads h
    refine yields_admitted fits (told_resumeAll (hA q)) fun _ u fits => ?_
    refine yields_admitted fits (told_countPhase _) fun _ u fits => ?_
    refine (yields_runLoops fits).bind fun _ v l leads => ?_
    obtain ⟨r, walk, fits⟩ := leads
    exact (yields_delivered fits inbox).mono fun _ _ _ h => walk.leads h

end Chronicle

end BlockStage
