/-
  Mail: what becomes of the queue of messages.

  As long as a session keeps running, messages get into the queue only by being posted, each at the
  end, and hosts are told of a delivery only when it is over.  So within an update, and within any
  other call, the queue grows by the messages that are posted, and the events by the deliveries that
  have been seen (`Session.Trace.mail`).
-/
import BlockStage.Proofs.Chronicle.Faithful

namespace BlockStage

/-! ## Moments of the mail -/

namespace Moment

/-- The message that is queued at a moment. -/
def posted? : Moment → Option String
  | ⟨.post message, _⟩ => some message
  | _ => none

/-- The message whose delivery begins at a moment. -/
def begun? : Moment → Option String
  | ⟨.deliver message, _⟩ => some message
  | _ => none

/-- The message whose delivery is over, and how many behaviors it has launched. -/
def delivered? : Moment → Option (String × Nat)
  | ⟨.delivered message handlers, _⟩ => some (message, handlers)
  | _ => none

end Moment

/-- An occasion within a call. -/
def Occasion.Inner : Occasion → Prop
  | .call _ => False
  | .start => False
  | .update => False
  | _ => True

namespace Session

variable {s t u : Session}

/-! ## What sends nothing -/

/-- The session is running if it was before, and no message has been queued and none reported. -/
def Mute (s t : Session) : Prop :=
  t.running = s.running ∧ t.inbox = s.inbox ∧ t.heard = s.heard

namespace Mute

theorem refl (s : Session) : s.Mute s := ⟨rfl, rfl, rfl⟩

theorem trans (h : s.Mute t) (k : t.Mute u) : s.Mute u := by
  obtain ⟨running, inbox, heard⟩ := h
  obtain ⟨running', inbox', heard'⟩ := k
  exact ⟨running'.trans running, inbox'.trans inbox, heard'.trans heard⟩

/-- Telling of one thing that is no delivery. -/
theorem told {e : Event} (running : t.running = s.running) (inbox : t.inbox = s.inbox)
    (events : t.events = s.events ++ [e]) (h : e.heard? = none) : s.Mute t := by
  refine ⟨running, inbox, ?_⟩
  rw [Session.heard, events, List.filterMap_append, List.filterMap_cons_none h, List.filterMap_nil,
    List.append_nil]
  rfl

end Mute

theorem mute_deleteEntity (s : Session) (id : String) : s.Mute (s.deleteEntity id).2 := by
  rw [deleteEntity]
  split
  · exact .refl s
  · exact .told (e := .deleted id) rfl rfl rfl rfl

/-- Making a clone tells of the clone only. -/
theorem mute_requestClone (s : Session) (source : String) : s.Mute (s.requestClone source).2 := by
  have spawned : ∀ (s : Session) (template : Template) (prototype id : String),
      s.Mute (s.spawnClone template source prototype id).2 := by
    intro s template prototype id
    rw [spawnClone]
    split
    · exact .refl s
    · rename_i stage _
      refine Mute.trans (t := s.settleClone template prototype id stage) ?_ ?_
      · exact Mute.told (e := .cloneSpawned id prototype) rfl rfl rfl rfl
      · rw [queueStarts]
        split <;> exact Mute.refl _
  have added : s.Mute (s.addClone source).2 := by
    rw [addClone]
    dsimp only
    split
    · exact .refl s
    split
    · exact .told rfl rfl rfl rfl
    · exact spawned { s with cloneSerial := s.cloneSerial + 1 } _ _ _
  rw [requestClone]
  split
  · rename_i h
    rw [h] at added
    exact added
  · exact added

/-- The end of the start phase says nothing of messages. -/
theorem mute_finishStart (s : Session) : s.Mute (Play.finishStart s) := by
  rw [Play.finishStart, Play.foldl_renewTemplate]
  exact .refl s

/-- If a session is running in the end, then it was before, and no message has been queued and none
    reported. -/
def Tacit (s t : Session) : Prop :=
  t.running = true → s.running = true ∧ t.inbox = s.inbox ∧ t.heard = s.heard

namespace Tacit

theorem refl (s : Session) : s.Tacit s := fun running => ⟨running, rfl, rfl⟩

theorem trans (h : s.Tacit t) (k : t.Tacit u) : s.Tacit u := by
  intro running
  obtain ⟨running, inbox, heard⟩ := k running
  obtain ⟨running, inbox', heard'⟩ := h running
  exact ⟨running, inbox.trans inbox', heard.trans heard'⟩

end Tacit

theorem Mute.tacit (h : s.Mute t) : s.Tacit t := fun running => ⟨h.1.symm.trans running, h.2⟩

theorem Feat.tacit (h : Feat s t) : s.Tacit t := by
  cases h with
  | beside h =>
    intro running
    have same : t.running = s.running := by
      rw [h.rest]
      rfl
    exact ⟨same.symm.trans running, h.inbox, h.heard⟩
  | delete id => exact (s.mute_deleteEntity id).tacit
  | stop =>
    intro running
    rw [running_stopAll] at running
    cases running
  | _ => exact Tacit.refl s

theorem Feats.tacit (h : Feats s t) : s.Tacit t := by
  induction h with
  | refl => exact .refl s
  | tail _ k ih => exact ih.trans k.tacit

theorem Change.tacit (h : Change s t) : s.Tacit t := by
  cases h with
  | feat h => exact h.tacit
  | _ => exact Tacit.refl s

/-- No chore queues a message. -/
theorem Chores.inbox {brings saves : String → Prop} {adds : Behavior → Prop}
    (h : Chores brings saves adds s t) (running : t.running = true) :
    s.running = true ∧ t.inbox = s.inbox := by
  induction h with
  | refl => exact ⟨running, rfl⟩
  | @tail t u _ k ih =>
    have step : t.running = true ∧ u.inbox = t.inbox := by
      cases k with
      | trick h => exact ⟨(h.feat.tacit running).1, (h.feat.tacit running).2.1⟩
      | enroll hd h =>
        have loads := loads_enroll h
        exact ⟨loads.running.symm.trans running, loads.inbox⟩
      | _ => exact ⟨running, rfl⟩
    exact ⟨(ih step.1).1, step.2.trans (ih step.1).2⟩

/-- A call that neither runs scripts nor queues a message leaves the queue as it is, unless it stops
    the session. -/
theorem inbox_plain {c : Call} (hc : c.Plain) (running : (c.run.last s).running = true) :
    s.running = true ∧ (c.run.last s).inbox = s.inbox := by
  by_cases keeps : c.KeepsScene
  · exact (c.chores hc keeps s).inbox running
  · rw [Call.idle_of_clears keeps s] at running
    cases running

/-! ## Accounts -/

/-- From a running session on, the queue has grown by the messages posted, and the reports by the
    deliveries that are over. -/
structure Mails (s : Session) (l : List Moment) (t : Session) : Prop where
  running : s.running = true
  inbox : t.inbox = s.inbox ++ l.filterMap Moment.posted?
  heard : t.heard = s.heard ++ l.filterMap Moment.delivered?

theorem Mails.tacit {l : List Moment} (h : t.running = true → s.Mails l t) (k : t.Tacit u)
    (running : u.running = true) : s.Mails l u := by
  obtain ⟨before, inbox, heard⟩ := k running
  have mails := h before
  exact ⟨mails.running, inbox.trans mails.inbox, heard.trans mails.heard⟩

/-- An occasion within a call at which no message is queued and no delivery is over. -/
theorem Effect.tacit {o : Occasion} (h : Effect o s t) (inner : o.Inner)
    (unposted : ∀ m, o ≠ .post m) (undelivered : ∀ m n, o ≠ .delivered m n) : s.Tacit t := by
  cases h with
  | call | plain | start | update => exact inner.elim
  | @work _ entity behavior w h => exact (w.feats entity s).tacit
  | clone source => exact (s.mute_requestClone source).tacit
  | @post _ m h => exact absurd rfl (unposted m)
  | delivered m n => exact absurd rfl (undelivered m n)
  | complete h => exact (mute_finishStart _).tacit
  | _ => exact Tacit.refl s

/-- **The queue grows by what is posted, and the reports by what has been delivered**, as long as
    the session keeps running. -/
theorem Trace.mail {A : Occasion → Prop} {l : List Moment} (h : Trace A s l t)
    (hA : ∀ o, A o → o.Inner) (running : t.running = true) : s.Mails l t := by
  induction h with
  | start => exact ⟨running, (List.append_nil _).symm, (List.append_nil _).symm⟩
  | change _ k ih => exact Mails.tacit ih k.tacit running
  | @moment l t u o _ ho k ih =>
    -- besides posting and the end of a delivery nothing counts
    have quiet : (∀ m, o ≠ .post m) → (∀ m n, o ≠ .delivered m n) → s.Mails (l ++ [⟨o, t⟩]) u := by
      intro unposted undelivered
      have mails := Mails.tacit ih (k.tacit (hA o ho) unposted undelivered) running
      have none : Moment.posted? ⟨o, t⟩ = none ∧ Moment.delivered? ⟨o, t⟩ = none := by
        cases o with
        | post m => exact absurd rfl (unposted m)
        | delivered m n => exact absurd rfl (undelivered m n)
        | _ => exact ⟨rfl, rfl⟩
      refine ⟨mails.running, ?_, ?_⟩
      · rw [List.filterMap_append, List.filterMap_cons_none none.1, List.filterMap_nil, List.append_nil]
        exact mails.inbox
      · rw [List.filterMap_append, List.filterMap_cons_none none.2, List.filterMap_nil, List.append_nil]
        exact mails.heard
    cases k with
    | @post _ m h =>
      have mails := ih running
      refine ⟨mails.running, ?_, ?_⟩
      · rw [List.filterMap_append, ← List.append_assoc, ← mails.inbox]
        rfl
      · rw [List.filterMap_append, ← List.append_assoc, ← mails.heard]
        exact (List.append_nil _).symm
    | delivered m n =>
      have mails := ih running
      refine ⟨mails.running, ?_, ?_⟩
      · rw [List.filterMap_append, ← List.append_assoc, ← mails.inbox]
        exact (List.append_nil _).symm
      · rw [List.filterMap_append, ← List.append_assoc, ← mails.heard]
        exact List.filterMap_append
    | _ => exact quiet (fun _ h => by cases h) fun _ _ h => by cases h

end Session

end BlockStage
