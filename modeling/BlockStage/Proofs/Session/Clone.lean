/-
  Making clones, seen from outside.

  A request for a clone is either refused, and then nothing has changed but the number of the next
  clone and what is beside the stage; or a copy of a template has come on stage under a new number,
  with its catalog and its local values, has been told of, and waits in the queue if the session
  runs (`Session.CloneStep`).  Whatever else is said about clones is read off these two cases.
-/
import BlockStage.Proofs.Digits
import BlockStage.Proofs.Session.Script
import BlockStage.Proofs.Stage.Roster

namespace BlockStage

namespace Session

/-! ## Names -/

/-- The id of a clone. -/
def cloneName (prototype : String) (serial : Nat) : String :=
  prototype ++ cloneSeparator ++ toString serial

/-- Texts that end in a part without some character are told apart by what comes before it. -/
theorem append_cons_inj_of_notMem_right {α : Type} {x y d e : List α} {c : α} (hd : c ∉ d)
    (he : c ∉ e) (h : x ++ c :: d = y ++ c :: e) : x = y ∧ d = e := by
  rcases List.append_eq_append_iff.mp h with ⟨more, hy, rest⟩ | ⟨more, hx, rest⟩
  · cases more with
    | nil => exact ⟨by rw [hy, List.append_nil], (List.cons.inj rest).2⟩
    | cons a more =>
      refine absurd ?_ hd
      rw [(List.cons.inj rest).2]
      exact List.mem_append_right more List.mem_cons_self
  · cases more with
    | nil => exact ⟨by rw [hx, List.append_nil], (List.cons.inj rest).2.symm⟩
    | cons a more =>
      refine absurd ?_ he
      rw [(List.cons.inj rest).2]
      exact List.mem_append_right more List.mem_cons_self

/-- The characters of a clone's id, up to the last of the separator and from there on. -/
theorem toList_cloneName (prototype : String) (serial : Nat) :
    (cloneName prototype serial).toList
      = (prototype.toList ++ cloneSeparator.toList.dropLast) ++ '_' :: (toString serial).toList := by
  have split : cloneSeparator.toList = cloneSeparator.toList.dropLast ++ ['_'] := by decide
  rw [cloneName, String.toList_append, String.toList_append]
  nth_rewrite 1 [split]
  rw [← List.append_assoc, List.append_assoc, List.singleton_append]

/-- **Ids of clones can be read back**: they tell the prototype and the number. -/
theorem cloneName_inj {p q : String} {m n : Nat} :
    cloneName p m = cloneName q n ↔ p = q ∧ m = n := by
  constructor
  · intro h
    have chars := congrArg String.toList h
    rw [toList_cloneName, toList_cloneName] at chars
    -- a number has no underscore, so the last underscore ends the separator
    obtain ⟨front, digits⟩ := append_cons_inj_of_notMem_right (notMem_toString (c := '_') rfl m)
      (notMem_toString rfl n) chars
    exact ⟨String.toList_inj.mp (List.append_cancel_right front),
      toString_inj.mp (String.toList_inj.mp digits)⟩
  · rintro ⟨rfl, rfl⟩
    rfl

theorem cloneName_injective {prototype : String} {m n : Nat}
    (h : cloneName prototype m = cloneName prototype n) : m = n := (cloneName_inj.mp h).2

/-- Neither the prototype's own id nor blank. -/
theorem cloneName_ne (prototype : String) (n : Nat) : cloneName prototype n ≠ prototype := by
  intro h
  have longer := congrArg String.length h
  rw [cloneName, String.length_append, String.length_append] at longer
  have : cloneSeparator.length = 8 := by decide
  omega

theorem not_blank_cloneName (prototype : String) (n : Nat) :
    isBlankText (cloneName prototype n) = false := by
  rw [isBlankText, cloneName, String.toList_append, String.toList_append, List.all_append,
    List.all_append]
  have : cloneSeparator.toList.all isBlank = false := by decide
  rw [this, Bool.and_false, Bool.false_and]

/-! ## Requests -/

/-- A request for a clone, its answer, and the session after it. -/
inductive CloneStep (s : Session) : Except SessionError String → Session → Prop where
  | refused {t : Session} {e : SessionError} (serial : Nat)
    (h : ({ s with cloneSerial := serial } : Session).Aside t) (later : s.cloneSerial ≤ serial) :
    CloneStep s (.error e) t
  | made {t : Session} {id prototype : String} {template : Template} {h : Handle}
    {stage : Stage Float32} {store : VariableStore}
    (room : s.liveClones < s.config.cloneLimit)
    (known : s.templates.get? prototype = some template)
    (spawned : s.stage.spawn (s.cloneSpawn template prototype id) = .ok (h, stage))
    (locals : store = s.store.copyLocals prototype id ∨ store = s.store.addLocals id)
    (rest : Aside
      { s with
        cloneSerial := s.cloneSerial + 1
        stage := stage
        catalogs := s.catalogs.insert id template.catalog
        store := store
        events := s.events ++ [.cloneSpawned id prototype]
        cloneStarts := if s.running then s.cloneStarts ++ [id] else s.cloneStarts } t)
    (named : id = cloneName prototype (s.cloneSerial + 1)) :
    CloneStep s (.ok id) t

theorem cloneSpawn_id (s : Session) (t : Template) (prototype id : String) :
    (s.cloneSpawn t prototype id).id = id := by
  rw [cloneSpawn]
  split <;> rfl

theorem cloneSpawn_prototype (s : Session) (t : Template) (prototype id : String) :
    (s.cloneSpawn t prototype id).prototype = some prototype := by
  rw [cloneSpawn]
  split <;> rfl

theorem cloneSpawn_body (s : Session) (t : Template) (prototype id : String) :
    (s.cloneSpawn t prototype id).body = t.spawn.body := by
  rw [cloneSpawn]
  split <;> rfl

theorem spawnClone_step (s : Session) {t : Template} {source prototype id : String}
    (room : s.liveClones < s.config.cloneLimit) (known : s.templates.get? prototype = some t)
    (named : id = cloneName prototype (s.cloneSerial + 1)) :
    CloneStep s ({ s with cloneSerial := s.cloneSerial + 1 }.spawnClone t source prototype id).1
      ({ s with cloneSerial := s.cloneSerial + 1 }.spawnClone t source prototype id).2 := by
  rw [spawnClone]
  split
  · exact .refused (s.cloneSerial + 1) ⟨rfl, rfl⟩ (Nat.le_succ _)
  rename_i stage spawned
  -- the session with the clone on stage, before anything is written into the journal
  let made : Session :=
    { s with
      cloneSerial := s.cloneSerial + 1
      stage := stage
      catalogs := s.catalogs.insert id t.catalog
      events := s.events ++ [.cloneSpawned id prototype]
      store :=
        if (s.handle? prototype).isSome then s.store.copyLocals prototype id
        else s.store.addLocals id }
  refine @CloneStep.made s _ id prototype t _ stage made.store room known spawned ?_ ?_ named
  · by_cases lives : (s.handle? prototype).isSome
    · exact .inl (if_pos lives)
    · exact .inr (if_neg lives)
  · show Aside _ (if s.running = true then _ else _)
    by_cases hr : s.running = true
    · rw [if_pos hr, if_pos hr]
      exact ⟨rfl, rfl⟩
    · rw [if_neg hr, if_neg hr]
      exact ⟨rfl, rfl⟩

theorem addClone_step (s : Session) (source : String) :
    CloneStep s (s.addClone source).1 (s.addClone source).2 := by
  rw [addClone]
  dsimp only
  split
  · exact .refused s.cloneSerial ⟨rfl, rfl⟩ (Nat.le_refl _)
  rename_i template known
  split
  · exact .refused s.cloneSerial (s.aside_emit _ rfl) (Nat.le_refl _)
  rename_i room
  exact s.spawnClone_step (Nat.lt_of_not_le room) known rfl

theorem requestClone_step (s : Session) (source : String) :
    CloneStep s (s.requestClone source).1 (s.requestClone source).2 := by
  have step := s.addClone_step source
  rw [requestClone]
  split
  · rename_i e t h
    rw [h] at step
    cases step with
    | refused serial aside later => exact .refused serial (aside.trans (t.aside_note _ _)) later
  · exact step

/-- Whether the session runs, its tasks and its templates are not affected by a request. -/
theorem CloneStep.fixed {s t : Session} {r : Except SessionError String} (h : CloneStep s r t) :
    t.running = s.running ∧ t.scheduler = s.scheduler ∧ t.draining = s.draining ∧
      t.templates = s.templates := by
  cases h with
  | refused serial h =>
    rw [h.rest]
    exact ⟨rfl, rfl, rfl, rfl⟩
  | made room known spawned locals rest =>
    rw [rest.rest]
    exact ⟨rfl, rfl, rfl, rfl⟩

/-- Asking for a clone has nothing to do with sounds and touches. -/
theorem spares_requestClone (s : Session) (source : String) :
    s.Spares (s.requestClone source).2 := by
  have added : s.Spares (s.addClone source).2 := by
    rw [addClone]
    dsimp only
    split
    · exact .refl s
    split
    · exact s.spares_emit (.cloneRejected _ _) rfl
    rw [spawnClone]
    split
    · exact ⟨rfl, .refl _⟩
    rw [queueStarts]
    split <;> exact ⟨s.keepsakes_emit (.cloneSpawned _ _) rfl, .refl _⟩
  rw [requestClone]
  split
  · rename_i refused
    rw [refused] at added
    exact added.trans ⟨rfl, .refl _⟩
  · exact added

theorem requestClone_fst (s : Session) (source : String) :
    (s.requestClone source).1 = (s.addClone source).1 := by
  rw [requestClone]
  split
  · rename_i h
    rw [h]
  · rfl

/-- A clone is named after the prototype behind the id that was asked for. -/
theorem requestClone_ok {s : Session} {source id : String} (h : (s.requestClone source).1 = .ok id) :
    id = cloneName (s.prototypeOf source) (s.cloneSerial + 1) := by
  rw [requestClone_fst, addClone] at h
  dsimp only at h
  split at h
  · cases h
  split at h
  · cases h
  rw [spawnClone] at h
  split at h
  · cases h
  · exact (Except.ok.inj h).symm

/-- A request finds the template of the prototype behind the id, if there is one. -/
theorem requestClone_ne_noTemplate {s : Session} {source : String}
    (known : s.templates.contains (s.prototypeOf source) = true) (prototype : String) :
    (s.requestClone source).1 ≠ .error (.noTemplate source prototype) := by
  obtain ⟨template, ht⟩ := Option.isSome_iff_exists.mp known
  have ht : s.templates.get? (s.prototypeOf source) = some template := ht
  intro h
  rw [requestClone_fst] at h
  simp only [addClone, ht] at h
  split at h
  · cases h
  rw [spawnClone] at h
  split at h
  · cases h
  · cases h

/-- A request for a clone that is not refused, said outright. -/
theorem requestClone_of_spawn {s : Session} {source prototype : String} {template : Template}
    {h : Handle} {stage : Stage Float32} (found : s.prototypeOf source = prototype)
    (known : s.templates.get? prototype = some template)
    (room : s.liveClones < s.config.cloneLimit)
    (spawned : s.stage.spawn (s.cloneSpawn template prototype
      (cloneName prototype (s.cloneSerial + 1))) = .ok (h, stage)) :
    s.requestClone source = (.ok (cloneName prototype (s.cloneSerial + 1)),
      ({ s with cloneSerial := s.cloneSerial + 1 }.settleClone template prototype
        (cloneName prototype (s.cloneSerial + 1)) stage).queueStarts
        (cloneName prototype (s.cloneSerial + 1))) := by
  let t : Session := { s with cloneSerial := s.cloneSerial + 1 }
  have made : t.spawnClone template source prototype (cloneName prototype t.cloneSerial)
      = (.ok (cloneName prototype t.cloneSerial), (t.settleClone template prototype
        (cloneName prototype t.cloneSerial) stage).queueStarts
          (cloneName prototype t.cloneSerial)) := by
    have spawned : t.stage.spawn (t.cloneSpawn template prototype
      (cloneName prototype t.cloneSerial)) = .ok (h, stage) := spawned
    rw [spawnClone, spawned]
  have added : s.addClone source = (.ok (cloneName prototype t.cloneSerial),
      (t.settleClone template prototype (cloneName prototype t.cloneSerial) stage).queueStarts
        (cloneName prototype t.cloneSerial)) := by
    simp only [addClone, found, known, if_neg (Nat.not_le_of_lt room)]
    exact made
  rw [requestClone, added]

theorem apart_spawnClone (t : Template) (source prototype id : String) :
    Apart fun s => s.spawnClone t source prototype id := by
  intro s d
  have same : (s.under d).stage.spawn ((s.under d).cloneSpawn t prototype id)
      = s.stage.spawn (s.cloneSpawn t prototype id) := rfl
  simp only [spawnClone, same]
  split
  · rfl
  · refine Prod.ext rfl ?_
    symm
    exact apply_ite (under · d) (s.running = true) _ _

theorem apart_addClone (source : String) : Apart fun s => s.addClone source := by
  intro s d
  cases known : s.templates.get? (s.prototypeOf source) with
  | none =>
    have known' : (s.under d).templates.get? ((s.under d).prototypeOf source) = none :=
      known
    simp only [addClone, known, known']
    rfl
  | some template =>
    have known' : (s.under d).templates.get? ((s.under d).prototypeOf source)
        = some template := known
    by_cases full : s.config.cloneLimit ≤ s.liveClones
    · have full' : (s.under d).config.cloneLimit ≤ (s.under d).liveClones := full
      simp only [addClone, known, known', if_pos full, if_pos full']
      rfl
    · have full' : ¬(s.under d).config.cloneLimit ≤ (s.under d).liveClones := full
      simp only [addClone, known, known', if_neg full, if_neg full']
      exact apart_spawnClone _ _ _ _ { s with cloneSerial := s.cloneSerial + 1 } d

theorem apart_requestClone (source : String) : Apart fun s => s.requestClone source := by
  intro s d
  have same := apart_addClone source s d
  dsimp only at same ⊢
  rw [requestClone, requestClone, same]
  rcases s.addClone source with ⟨_ | _, t⟩ <;> rfl

end Session

/-! ## The queue -/

namespace Play

theorem nextCloneStart_nil {s : Session} (h : s.cloneStarts = []) :
    nextCloneStart s = .ok none s := by
  rw [nextCloneStart, changing_apply, h]

theorem nextCloneStart_cons {s : Session} {id : String} {rest : List String}
    (h : s.cloneStarts = id :: rest) :
    nextCloneStart s = .ok (some id) { s with cloneStarts := rest } := by
  rw [nextCloneStart, changing_apply, h]

end Play

end BlockStage
