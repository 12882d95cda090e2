/-
  Courses: what happens in a session from moment to moment.

  1. **Moments** — a call is not one change but many, made one after the other by scripts, by the
     game loop and by the host itself, and a clone can be asked for between any two of them.
     `Session.Step` lists the changes; a request for a clone is a moment of its own.

  2. **Courses (`Session.Course`)** — from one session to another some moments have passed, and the
     clones made on the way had these ids, in this order.

  3. **The crux (`stable_course`)** — to be reached by a course is itself a stable property.  So every
     call runs through one, whatever its scripts do (`course_of_call`), and what a stable property
     says of the beginning it says of every moment (`Stable.course`).
-/
import BlockStage.Proofs.Session.Registry

namespace BlockStage

namespace Session

variable {l : Licence} {s t u : Session} {ids more : List String}

/-! ## Moments -/

/-- One change of a session that is not a request for a clone, made by a script, by the game loop or
    by a host that keeps to a licence. -/
inductive Step (l : Licence) : Session → Session → Prop where
  | deed {s t : Session} (h : Deed s t) : Step l s t
  | upkeep {s t : Session} (h : s.Upkeep t) : Step l s t
  | queue {s : Session} (starts : List String) (draining : Bool) :
    Step l s { s with cloneStarts := starts, draining := draining }
  | template {s : Session} (id : String) (t : Template) :
    Step l s { s with templates := s.templates.insert id t }
  | enroll {s t : Session} {d : Spawn Float32} (hd : l.admits d) (h : s.enroll d = .ok t) : Step l s t
  | clear {s : Session} (hl : l.clears) : Step l s s.clearStage
  | define {s : Session} (ds : List VariableDefinition) : Step l s (s.defineVariables ds)
  | forget {s : Session} (hl : l.clears) : Step l s { s with store := s.store.forgetValues }
  | events {s : Session} : Step l s { s with events := [] }

/-- The id that a request for a clone has been answered with, if it has not been refused. -/
def madeBy : Except SessionError String → List String
  | .ok id => [id]
  | .error _ => []

/-- Some moments lead from one session to another, and the clones made on the way have these ids. -/
inductive Course (l : Licence) (s : Session) : List String → Session → Prop where
  | start : Course l s [] s
  | step {ids : List String} {t u : Session} (h : Course l s ids t) (k : Step l t u) :
    Course l s ids u
  | request {ids : List String} {t : Session} (h : Course l s ids t) (source : String) :
    Course l s (ids ++ madeBy (t.requestClone source).1) (t.requestClone source).2

theorem Course.trans (h : Course l s ids t) (k : Course l t more u) : Course l s (ids ++ more) u := by
  induction k with
  | start =>
    rw [List.append_nil]
    exact h
  | step _ step ih => exact ih.step step
  | request _ source ih =>
    rw [← List.append_assoc]
    exact ih.request source

/-! ## What holds at every moment -/

/-- A stable property holds at every moment of a course if it holds at the beginning. -/
theorem Stable.course {I : Session → Prop} (hI : Stable l I) (h : Course l s ids t) (hs : I s) :
    I t := by
  induction h with
  | start => exact hs
  | step _ step ih =>
    cases step with
    | deed h => exact hI.deed h ih
    | upkeep h => exact hI.upkeep h ih
    | queue starts draining => exact hI.queue _ starts draining ih
    | template id t => exact hI.template _ id t ih
    | enroll hd h => exact hI.enroll hd h ih
    | clear hl => exact hI.clear hl _ ih
    | define ds => exact hI.define _ ds ih
    | forget hl => exact hI.forget hl _ ih
    | events => exact hI.events _ ih
  | request _ source ih => exact hI.request _ source ih

/-- **To be reached by a course is stable.** -/
theorem stable_course (l : Licence) (s : Session) : Stable l fun t => ∃ ids, Course l s ids t where
  deed h ht := ht.imp fun _ c => c.step (.deed h)
  upkeep h ht := ht.imp fun _ c => c.step (.upkeep h)
  queue _ starts draining ht := ht.imp fun _ c => c.step (.queue starts draining)
  template _ id t ht := ht.imp fun _ c => c.step (.template id t)
  enroll hd h ht := ht.imp fun _ c => c.step (.enroll hd h)
  clear hl _ ht := ht.imp fun _ c => c.step (.clear hl)
  define _ ds ht := ht.imp fun _ c => c.step (.define ds)
  forget hl _ ht := ht.imp fun _ c => c.step (.forget hl)
  events _ ht := ht.imp fun _ c => c.step .events
  request _ source ht := ht.elim fun _ c => ⟨_, c.request source⟩

/-- **Every call takes a course**, also one that breaks off. -/
theorem course_of_call (s : Session) (c : Call) (hc : c.Within l) :
    ∃ ids, Course l s ids (c.run.last s) :=
  (stable_course l s).call c hc s ⟨[], .start⟩

theorem course_after (s : Session) (calls : List Call) (hc : ∀ c ∈ calls, c.Within l) :
    ∃ ids, Course l s ids (s.after calls) := by
  induction calls generalizing s with
  | nil => exact ⟨[], .start⟩
  | cons c rest ih =>
    obtain ⟨ids, first⟩ := s.course_of_call c (hc c List.mem_cons_self)
    obtain ⟨more, others⟩ := ih (c.run.last s) fun d hd => hc d (List.mem_cons_of_mem c hd)
    exact ⟨ids ++ more, first.trans others⟩

/-! ## What hosts are told -/

end Session

/-- The id of the clone that an event tells of. -/
def Event.clone? : Event → Option String
  | .cloneSpawned id _ => some id
  | _ => none

namespace Session

variable {l : Licence} {s t u : Session} {ids more : List String}

/-- The ids of the clones that the events tell of. -/
def clonings (s : Session) : List String := s.events.filterMap Event.clone?

theorem clonings_eq (s : Session) : s.clonings = s.passages.filterMap Event.clone? := by
  rw [clonings, passages]
  induction s.events with
  | nil => rfl
  | cons e rest ih =>
    rw [List.filterMap_cons, List.filter_cons, ih]
    cases e <;> rfl

theorem clonings_of_passages (h : t.passages = s.passages) : t.clonings = s.clonings := by
  rw [clonings_eq, clonings_eq, h]

theorem clonings_emit (s : Session) (e : Event) :
    (s.emit e).clonings = s.clonings ++ e.clone?.toList := by
  rw [clonings, clonings, emit, List.filterMap_append, List.filterMap_cons, List.filterMap_nil]
  cases e.clone? <;> rfl

theorem Deed.clonings (h : Deed s t) : t.clonings = s.clonings := by
  cases h with
  | aside h => exact clonings_of_passages h.passages
  | stage h => rfl
  | write id key v => rfl
  | catalog d known => rfl
  | delete id =>
    rw [deleteEntity]
    split
    · rfl
    · exact (clonings_emit _ (.deleted id)).trans (List.append_nil _)
  | stop =>
    rw [stopAll]
    split
    · rfl
    · exact (clonings_emit _ .stopped).trans (List.append_nil _)

/-- Besides requests nothing tells of clones, but events can be taken. -/
theorem Step.clonings (h : Step l s t) : t.clonings = s.clonings ∨ t.clonings = [] := by
  cases h with
  | deed h => exact .inl h.clonings
  | upkeep h => exact .inl (clonings_of_passages h.passages)
  | queue starts draining => exact .inl rfl
  | template id t => exact .inl rfl
  | @enroll _ d hd h =>
    obtain ⟨x, stage, -, rfl⟩ := enroll_ok h
    exact .inl ((clonings_emit _ (.registered d.id)).trans (List.append_nil _))
  | clear hl => exact .inl rfl
  | define ds => exact .inl rfl
  | forget hl => exact .inl rfl
  | events => exact .inr rfl

theorem CloneStep.clonings {r : Except SessionError String} (h : CloneStep s r t) :
    t.clonings = s.clonings ++ madeBy r := by
  cases h with
  | refused serial h later => exact (clonings_of_passages h.passages).trans (List.append_nil _).symm
  | @made _ id prototype template h stage store room known spawned locals rest named =>
    exact (clonings_of_passages rest.passages).trans (s.clonings_emit (.cloneSpawned id prototype))

/-- The clones that the events tell of are the last of those that were told of before or have been
    made since. -/
theorem Course.clonings (h : Course l s ids t) : t.clonings <:+ s.clonings ++ ids := by
  induction h with
  | start => exact ⟨[], (List.append_nil _).symm⟩
  | step _ step ih =>
    rcases step.clonings with same | none
    · rw [same]
      exact ih
    · rw [none]
      exact List.nil_suffix
  | @request ids t _ source ih =>
    obtain ⟨front, earlier⟩ := ih
    refine ⟨front, ?_⟩
    rw [(t.requestClone_step source).clonings, ← List.append_assoc, earlier, List.append_assoc]

end Session

end BlockStage
