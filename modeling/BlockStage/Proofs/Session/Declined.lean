/-
  Declined requests: when no clone is made, and what is left of the attempt.

  1. **Specification** — a request is declined if there is no template of the prototype, if there is
     no room for another clone, or if somebody on stage already bears the id that the clone would be
     given; and in no other case (`Session.refusal?`).

  2. **What is left** — nothing but an error in the journal, an event if there was no room, and a
     number that is used up if the id was taken (`Session.Spared`).

  3. **What fails** — the third reason is easy to forget.  The id of a clone is made of the
     prototype's id and a number that is used once, so no two clones bear the same; but a scene may
     have given such an id to an entity of its own (`namesakes`).
-/
import BlockStage.Proofs.Session.Clone

namespace BlockStage

/-- On stage an id that is not blank is refused if somebody bears it, and only then. -/
theorem Stage.spawn_of_not_blank {α : Type} [Scalar α] (s : Stage α) {d : Spawn α}
    (named : isBlankText d.id = false) :
    (s.contains d.id = true ∧ s.spawn d = .error (.taken d.id)) ∨
      (s.contains d.id = false ∧ ∃ h t, s.spawn d = .ok (h, t)) := by
  rw [spawn, named, if_neg Bool.false_ne_true]
  cases s.contains d.id with
  | true => exact .inl ⟨rfl, if_pos rfl⟩
  | false => exact .inr ⟨rfl, _, _, if_neg Bool.false_ne_true⟩

namespace Session

variable {s t : Session} {source : String} {e : SessionError}

/-! ## The reasons -/

/-- The id that the next clone is given. -/
def nextCloneName (s : Session) (source : String) : String :=
  cloneName (s.prototypeOf source) (s.cloneSerial + 1)

/-- Why a request for a clone is declined, if it is. -/
def refusal? (s : Session) (source : String) : Option SessionError :=
  let prototype := s.prototypeOf source
  if s.templates.contains prototype = false then some (.noTemplate source prototype)
  else if s.config.cloneLimit ≤ s.liveClones then
    some (.cloneLimit prototype s.liveClones s.config.cloneLimit)
  else if s.stage.contains (s.nextCloneName source) then
    some (.cloneSpawn source (.taken (s.nextCloneName source)))
  else none

/-- The three reasons, and no fourth. -/
theorem refusal?_ne_none_iff : s.refusal? source ≠ none ↔
    s.templates.get? (s.prototypeOf source) = none ∨ s.config.cloneLimit ≤ s.liveClones ∨
      ∃ h, s.handle? (s.nextCloneName source) = some h := by
  rw [← Option.isSome_iff_exists, ← Option.isNone_iff_eq_none, ← Option.isSome_eq_false_iff, refusal?]
  split
  · rename_i unknown
    exact ⟨fun _ => .inl unknown, fun _ => Option.some_ne_none _⟩
  rename_i known
  split
  · rename_i full
    exact ⟨fun _ => .inr (.inl full), fun _ => Option.some_ne_none _⟩
  rename_i room
  split
  · rename_i taken
    exact ⟨fun _ => .inr (.inr taken), fun _ => Option.some_ne_none _⟩
  · rename_i free
    exact ⟨fun h => (h rfl).elim, fun h => (h.elim known fun h => h.elim room free).elim⟩

theorem addClone_of_unknown (unknown : s.templates.get? (s.prototypeOf source) = none) :
    s.addClone source = (.error (.noTemplate source (s.prototypeOf source)), s) := by
  simp only [addClone, unknown]

theorem addClone_of_full {template : Template}
    (known : s.templates.get? (s.prototypeOf source) = some template)
    (full : s.config.cloneLimit ≤ s.liveClones) :
    s.addClone source
      = (.error (.cloneLimit (s.prototypeOf source) s.liveClones s.config.cloneLimit),
        s.emit (.cloneRejected (s.prototypeOf source) s.liveClones)) := by
  simp only [addClone, known, if_pos full]

/-- With a template and room, the stage has the last word, and it minds nothing but the id. -/
theorem addClone_of_room {template : Template}
    (known : s.templates.get? (s.prototypeOf source) = some template)
    (room : ¬s.config.cloneLimit ≤ s.liveClones) :
    (s.stage.contains (s.nextCloneName source) = true ∧ s.addClone source
      = (.error (.cloneSpawn source (.taken (s.nextCloneName source))),
        { s with cloneSerial := s.cloneSerial + 1 })) ∨
    (s.stage.contains (s.nextCloneName source) = false ∧
      (s.addClone source).1 = .ok (s.nextCloneName source)) := by
  let numbered : Session := { s with cloneSerial := s.cloneSerial + 1 }
  let spawn := numbered.cloneSpawn template (s.prototypeOf source) (s.nextCloneName source)
  have id : spawn.id = s.nextCloneName source := cloneSpawn_id _ _ _ _
  have asked : s.addClone source = numbered.spawnClone template source (s.prototypeOf source)
      (s.nextCloneName source) := by
    simp only [addClone, known, if_neg room]
    rfl
  have named : isBlankText spawn.id = false := id ▸ not_blank_cloneName _ _
  rw [asked, spawnClone]
  rcases s.stage.spawn_of_not_blank named with ⟨taken, refused⟩ | ⟨free, h, stage, spawned⟩
  · rw [id] at taken refused
    rw [show numbered.stage.spawn spawn = _ from refused]
    exact .inl ⟨taken, rfl⟩
  · rw [id] at free
    rw [show numbered.stage.spawn spawn = _ from spawned]
    exact .inr ⟨free, rfl⟩

/-! ## What is left -/

/-- What a request that was declined leaves behind: the session as it was, save for the error in the
    journal, an event that tells of the lack of room, and a number that may be used up. -/
structure Spared (s t : Session) (e : SessionError) : Prop where
  noted : t.journal = s.journal.push s.now .error e.message
  told : t.events = s.events ∨
    ∃ prototype live, t.events = s.events ++ [.cloneRejected prototype live]
  counted : t.cloneSerial = s.cloneSerial ∨ t.cloneSerial = s.cloneSerial + 1
  rest : t = { s with journal := t.journal, events := t.events, cloneSerial := t.cloneSerial }

theorem requestClone_of_error (h : s.addClone source = (.error e, t)) :
    s.requestClone source = (.error e, t.note .error e.message) := by
  rw [requestClone, h]

/-- **A request is declined for one of the reasons**, and then little is left of it; or it is granted,
    and then the clone has the next id. -/
theorem requestClone_cases (s : Session) (source : String) :
    (∃ e t, s.refusal? source = some e ∧ s.requestClone source = (.error e, t) ∧ s.Spared t e) ∨
    (s.refusal? source = none ∧ (s.requestClone source).1 = .ok (s.nextCloneName source)) := by
  rw [refusal?]
  cases known : s.templates.get? (s.prototypeOf source) with
  | none =>
    have unknown : s.templates.contains (s.prototypeOf source) = false := by
      rw [Table.contains, known, Option.isSome_none]
    rw [if_pos unknown, requestClone_of_error (addClone_of_unknown known)]
    exact .inl ⟨_, _, rfl, rfl, rfl, .inl rfl, .inl rfl, rfl⟩
  | some template =>
    have listed : ¬s.templates.contains (s.prototypeOf source) = false := by
      rw [Table.contains, known, Option.isSome_some]
      exact Bool.noConfusion
    rw [if_neg listed]
    by_cases full : s.config.cloneLimit ≤ s.liveClones
    · rw [if_pos full, requestClone_of_error (addClone_of_full known full)]
      exact .inl ⟨_, _, rfl, rfl, rfl, .inr ⟨_, _, rfl⟩, .inl rfl, rfl⟩
    · rw [if_neg full, requestClone_fst]
      rcases addClone_of_room known full with ⟨taken, refused⟩ | ⟨free, granted⟩
      · rw [if_pos taken, requestClone_of_error refused]
        exact .inl ⟨_, _, rfl, rfl, rfl, .inl rfl, .inr rfl, rfl⟩
      · rw [free, if_neg Bool.false_ne_true]
        exact .inr ⟨rfl, granted⟩

/-- A call that asks for a clone in vain answers with the error. -/
theorem createClone_of_error {e : SessionError} (asked : s.requestClone source = (.error e, t)) :
    Play.createClone source s = .ok (.error e) t := by
  have step : Play.changing (fun s => s.requestClone source) s = .ok (.error e) t := by
    rw [Play.changing_apply, asked]
  rw [Play.createClone, Play.bind_of_ok step]
  rfl

/-- A call that has made a clone then starts whoever waits for it. -/
theorem createClone_of_ok {id : String} (asked : s.requestClone source = (.ok id, t)) :
    Play.createClone source s = (Play.startQueuedClones >>= fun _ => pure (.ok id)) t := by
  have step : Play.changing (fun s => s.requestClone source) s = .ok (.ok id) t := by
    rw [Play.changing_apply, asked]
  rw [Play.createClone, Play.bind_of_ok step]

/-- A call that asks for a clone answers with an error only if the request was declined: once a clone
    has been made, its scripts have no say in what is answered. -/
theorem createClone_error_iff :
    Play.createClone source s = .ok (.error e) t ↔ s.requestClone source = (.error e, t) := by
  cases asked : s.requestClone source with
  | mk answer u =>
    cases answer with
    | error f =>
      rw [createClone_of_error asked]
      exact ⟨fun h => (by cases h; rfl), fun h => (by cases h; rfl)⟩
    | ok id =>
      refine ⟨fun h => ?_, fun h => (by cases h)⟩
      rw [createClone_of_ok asked] at h
      cases started : Play.startQueuedClones u with
      | ok _ v =>
        have answered := (Play.bind_of_ok started).symm.trans h
        cases answered
      | error f v =>
        have broken := (Play.bind_of_error started).symm.trans h
        cases broken

/-! ## The specification -/

/-- What can be said of a request for a clone of whoever is behind an id. -/
structure Discerning (s : Session) (source : String) : Prop where
  /-- The call answers with an error exactly for one of the three reasons. -/
  declined : (∃ e t, Play.createClone source s = .ok (.error e) t) ↔
    s.templates.get? (s.prototypeOf source) = none ∨ s.config.cloneLimit ≤ s.liveClones ∨
      ∃ h, s.handle? (cloneName (s.prototypeOf source) (s.cloneSerial + 1)) = some h
  /-- The error names the first reason that there is. -/
  reason : ∀ e t, Play.createClone source s = .ok (.error e) t → s.refusal? source = some e
  /-- Who is on stage and all that the scripts have and wait for is as before. -/
  kept : ∀ e t, Play.createClone source s = .ok (.error e) t →
    t.stage = s.stage ∧ t.catalogs = s.catalogs ∧ t.store = s.store ∧ t.templates = s.templates ∧
      t.scheduler = s.scheduler ∧ t.cloneStarts = s.cloneStarts
  /-- There is one more error in the journal, and besides that hardly anything has changed. -/
  spared : ∀ e t, Play.createClone source s = .ok (.error e) t → s.Spared t e

/-- **Requests for clones are declined for three reasons only**, in every session and for every id,
    and then no harm is done. -/
theorem discerning (s : Session) (source : String) : s.Discerning source := by
  have declined {e : SessionError} {t : Session}
      (h : Play.createClone source s = .ok (.error e) t) :
      s.refusal? source = some e ∧ s.Spared t e := by
    have asked := createClone_error_iff.mp h
    rcases s.requestClone_cases source with ⟨f, u, reason, same, spared⟩ | ⟨-, granted⟩
    · rw [asked] at same
      cases same
      exact ⟨reason, spared⟩
    · rw [asked] at granted
      cases granted
  refine ⟨?_, fun e t h => (declined h).1, fun e t h => ?_, fun e t h => (declined h).2⟩
  · refine Iff.trans ⟨?_, fun reason => ?_⟩ refusal?_ne_none_iff
    · rintro ⟨e, t, h⟩
      rw [(declined h).1]
      exact Option.some_ne_none e
    · rcases s.requestClone_cases source with ⟨e, t, -, asked, -⟩ | ⟨none, -⟩
      · exact ⟨e, t, createClone_error_iff.mpr asked⟩
      · exact absurd none reason
  · rw [(declined h).2.rest]
    exact ⟨rfl, rfl, rfl, rfl, rfl, rfl⟩

/-- An entity of the scene bears the id that the first clone would be given. -/
def namesakes : Session :=
  (fresh .usual (Generator.ofSeed 0) 0).after
    [.register (Spawn.new "a"), .register (Spawn.new "a__clone_1"), .saveTemplate "a"]

/-- **Templates and room are not enough**: a request is declined though there is a template of the
    prototype and not one clone on stage. -/
theorem declined_namesakes :
    Reachable namesakes ∧
      ¬((∃ e t, Play.createClone "a" namesakes = .ok (.error e) t) ↔
        namesakes.templates.get? (namesakes.prototypeOf "a") = none ∨
          namesakes.config.cloneLimit ≤ namesakes.liveClones) := by
  refine ⟨(Reachable.fresh _ _ _).after _ (by decide +kernel), fun only => ?_⟩
  have reason : namesakes.refusal? "a" ≠ none := by decide +kernel
  have listed : (namesakes.templates.get? (namesakes.prototypeOf "a")).isSome = true := by
    decide +kernel
  have room : ¬namesakes.config.cloneLimit ≤ namesakes.liveClones := by decide +kernel
  rcases namesakes.requestClone_cases "a" with ⟨e, t, -, asked, -⟩ | ⟨none, -⟩
  · rcases only.mp ⟨e, t, createClone_error_iff.mpr asked⟩ with unknown | full
    · rw [unknown] at listed
      cases listed
    · exact room full
  · exact reason none

end Session

end BlockStage
