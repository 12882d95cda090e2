/-
  What can break a call off.

  1. A call breaks off if it plays a sound whose length cannot be told, if it is told a time that is
     no span of time, or if it uses up the clone budget.

  2. **Sounds and steps** — only hosts hand over sounds, and no script ever changes the table of
     sounds.  So what is said of the sounds before a step holds all through it, and a step that
     breaks off over the length of a sound blames one that was in the table when the step began
     (`Play.Safe`).  That is a thorough property (`thorough_sure`), and the clock is the only other
     part of a round that may fail.

  3. **The theorem (`unbroken_of_visited`)** — a call breaks off over its time exactly if the
     session runs and the time is `2 ^ 64` seconds or more, and some sound cannot be played exactly
     if the table holds one that is not of proper length.  Every other call returns or uses up the
     clone budget, and so does every action of a script.

  4. **What fails**: the length of a sound is not looked at when a scene is read, so a scene may
     bring a sound of negative length (`discord`), and playing it breaks the call off.
-/
import BlockStage.Proofs.Number.Order
import BlockStage.Proofs.Session.Finishing
import BlockStage.Proofs.Session.Loading
import BlockStage.Proofs.Table

namespace BlockStage

/-! ## Sounds of proper length -/

/-- Exactly the sounds of proper length can be played. -/
theorem Player.play_ok_iff (p : Player) (entity : String) (x : Sound) (now : Float) :
    (∃ a, (p.play entity x now).1 = .ok a) ↔ x.Sized := by
  rw [← x.trimmedLength_ok_iff, play]
  dsimp only
  cases x.trimmedLength with
  | error e => exact iff_of_false (by rintro ⟨_, h⟩; cases h) (by rintro ⟨_, h⟩; cases h)
  | ok l => exact iff_of_true ⟨_, rfl⟩ ⟨_, rfl⟩

namespace Session

variable {s t : Session}

/-- All sounds are of proper length. -/
def Tuned (s : Session) : Prop := ∀ x ∈ s.sounds.values, x.Sized

theorem Tuned.of_sounds (h : t.sounds = s.sounds) (hs : s.Tuned) : t.Tuned := by
  rw [Tuned, h]
  exact hs

theorem mem_of_sound? {key : String} {x : BlockStage.Sound} (h : s.sound? key = some x) :
    x ∈ s.sounds.values := by
  rw [sound?] at h
  split at h
  · rename_i found
    obtain rfl := Option.some.inj h
    exact List.mem_map_of_mem (Table.mem_of_get? found)
  · exact List.mem_of_find?_eq_some h

end Session

namespace Play

variable {α β : Type} {late : Prop} {s : Session}

/-! ## Safe steps -/

/-- A step leaves the sounds as they are.  If it breaks off, then for want of budget, because of its
    time if that is too long, or over a sound that is not of proper length. -/
structure Safe (late : Prop) (p : Play α) (s : Session) : Prop where
  sounds : (p.last s).sounds = s.sounds
  fault : ∀ e t, p s = .error e t →
    e = .budgetExhausted ∨ e = .unrepresentableTime ∧ late ∨ e = .negativeSoundLength ∧ ¬s.Tuned

/-- A step that is safe in every session. -/
def Sure (late : Prop) (p : Play α) : Prop := ∀ s, p.Safe late s

theorem safe_of_ok {p : Play α} {a : α} {t : Session} (h : p s = .ok a t)
    (sounds : t.sounds = s.sounds) : p.Safe late s where
  sounds := by rw [last_of_ok h, sounds]
  fault e u hu := by
    rw [h] at hu
    cases hu

theorem sure_changing {f : Session → α × Session} (hf : ∀ s, (f s).2.sounds = s.sounds) :
    Sure late (changing f) := fun s => safe_of_ok (changing_apply f s) (hf s)

theorem sure_change {f : Session → Session} (hf : ∀ s, (f s).sounds = s.sounds) :
    Sure late (change f) := fun s => safe_of_ok rfl (hf s)

theorem Safe.bind {p : Play α} {f : α → Play β} (hp : p.Safe late s)
    (hf : ∀ a, Sure late (f a)) : (p >>= f).Safe late s := by
  cases hr : p s with
  | ok a t =>
    have same : t.sounds = s.sounds := by
      rw [← hp.sounds, last_of_ok hr]
    have next := hf a t
    refine ⟨?_, fun e u hu => ?_⟩
    · rw [last, bind_of_ok hr]
      exact next.sounds.trans same
    · rw [bind_of_ok hr] at hu
      exact (next.fault e u hu).imp_right
        (Or.imp_right (And.imp_right fun improper tuned => improper (tuned.of_sounds same)))
  | error e t =>
    have sounds := hp.sounds
    rw [last, hr] at sounds
    refine ⟨?_, fun f u hu => ?_⟩
    · rw [last, bind_of_error hr]
      exact sounds
    · rw [bind_of_error hr] at hu
      cases hu
      exact hp.fault e t hr

theorem Safe.mono {p : Play α} {never : Prop} (h : p.Safe never s) (hn : never → late) :
    p.Safe late s :=
  ⟨h.sounds, fun e t ht => (h.fault e t ht).imp_right (Or.imp_left (And.imp_right hn))⟩

theorem playSound_of_none {id key : String} (h : s.sound? key = none) :
    playSound id key s = .ok none s := by
  have asked : ask (fun s => s.sound? key) s = .ok none s := congrArg (EStateM.Result.ok · s) h
  rw [playSound, bind_of_ok asked]
  rfl

/-- What comes of playing a sound is what the player makes of it. -/
theorem playSound_of_some (id : String) {key : String} {x : Sound} (h : s.sound? key = some x) :
    playSound id key s =
      let t : Session := { s with player := (s.player.play id x s.now).2 }
      match (s.player.play id x s.now).1 with
      | .ok a => .ok (some a.1) (t.note .action (id ++ " played sound " ++ x.id))
      | .error e => .error e t := by
  have asked : ask (fun s => s.sound? key) s = .ok (some x) s :=
    congrArg (EStateM.Result.ok · s) h
  rw [playSound, bind_of_ok asked]
  dsimp only
  rw [bind_of_ok (changing_apply _ s)]
  dsimp only
  cases (s.player.play id x s.now).1 <;> rfl

/-- Playing a sound breaks off only over its own length. -/
theorem sure_playSound (id key : String) : Sure late (playSound id key) := by
  intro s
  cases found : s.sound? key with
  | none => exact safe_of_ok (playSound_of_none found) rfl
  | some x =>
    have played := playSound_of_some id found
    cases outcome : (s.player.play id x s.now).1 with
    | ok a =>
      rw [outcome] at played
      exact safe_of_ok played rfl
    | error e =>
      rw [outcome] at played
      have improper : ¬x.Sized := by
        rw [← s.player.play_ok_iff id x s.now, outcome]
        exact nofun
      refine ⟨?_, fun f u hu => ?_⟩
      · rw [last, played]
      · cases played.symm.trans hu
        exact .inr (.inr ⟨Player.play_error outcome,
          fun tuned => improper (tuned x (Session.mem_of_sound? found))⟩)

/-- A sound can be played exactly if it is of proper length, or not there at all. -/
theorem returns_playSound_iff {id key : String} :
    (playSound id key).returns s = true ↔ ∀ x, s.sound? key = some x → x.Sized := by
  cases found : s.sound? key with
  | none =>
    refine iff_of_true ?_ fun x hx => by cases hx
    rw [returns, playSound_of_none found]
  | some x =>
    rw [returns, playSound_of_some id found]
    have playable := s.player.play_ok_iff id x s.now
    cases outcome : (s.player.play id x s.now).1 with
    | ok a =>
      refine iff_of_true rfl fun y hy => Option.some.inj hy ▸ playable.mp ⟨a, outcome⟩
    | error e =>
      rw [outcome] at playable
      refine iff_of_false (by intro h; cases h) fun proper => ?_
      obtain ⟨_, none⟩ := playable.mpr (proper x rfl)
      cases none

theorem thorough_sure : Thorough fun {α} => Sure (α := α) late where
  bind hp hf s := (hp s).bind hf
  act hf := sure_changing hf.sounds
  playSound := sure_playSound
  upkeep _ _ hs := sure_changing fun s => (hs s).sounds

theorem Safe.congr {p q : Play α} (hp : p.Safe late s) (h : q s = p s) : q.Safe late s where
  sounds := by
    rw [last, h]
    exact hp.sounds
  fault e t ht := hp.fault e t (h ▸ ht)

theorem Safe.get_bind {f : Session → Play α} (hf : (f s).Safe late s) :
    (get >>= f).Safe late s := ⟨hf.sounds, hf.fault⟩

/-! ## Making clones -/

theorem sure_requestClone (source : String) :
    Sure late (changing fun s => s.requestClone source) :=
  sure_changing fun s => (s.spares_requestClone source).sounds

theorem sure_createClone (source : String) : Sure late (createClone source) := by
  have next : Sure late nextCloneStart := sure_changing fun s => by split <;> rfl
  refine thorough_sure.toHousekeeping.createClone sure_requestClone next
    (fun s => ⟨rfl, fun e t ht => .inl ?_⟩) (fun hf s => Safe.get_bind (hf s s))
    (fun draining => sure_change fun _ => rfl) source
  cases ht
  rfl

theorem sure_makeClone (source : String) : Sure late (makeClone source) :=
  thorough_sure.discarded (sure_createClone source)

/-! ## The clock -/

variable {dt : Float32}

/-- The clock takes every time that is not too long. -/
theorem sure_tick : Sure (Span.tooLong ≤ dt) (tick (Single.max dt 0)) := by
  rw [tick]
  cases span : Span.ofSeconds (Single.max dt 0) with
  | ok t => exact sure_change fun _ => rfl
  | error e =>
    refine fun s => ⟨rfl, fun f t ht => ?_⟩
    cases ht
    refine .inr (.inl ⟨Span.ofSeconds_error span, by_contra fun short => ?_⟩)
    obtain ⟨t, ht⟩ := Span.ofSeconds_max_ok_iff.mpr short
    rw [span] at ht
    cases ht

theorem sure_launch : Launching (Sure late) launch fun _ => True :=
  thorough_sure.launching (thorough_sure.launchWith sure_makeClone)

theorem sure_updateBy : Sure (Span.tooLong ≤ dt) (updateBy dt) :=
  thorough_sure.noting.updateBy sure_launch (thorough_sure.advanceStart sure_makeClone)
    (thorough_sure.resumeAll sure_makeClone) sure_tick

/-- An update looks up the time of a frame and is then an update by that time. -/
theorem update_apply (s : Session) : update s = updateBy s.config.frameTime s := by
  have asked : ask (fun s => s.config.frameTime) s = .ok s.config.frameTime s := rfl
  rw [update, bind_of_ok asked]

/-- An idle session is not updated. -/
theorem updateBy_of_idle (dt : Float32) (idle : s.running = false) : updateBy dt s = .ok () s := by
  have stopped : ask Session.running s = .ok false s := congrArg (EStateM.Result.ok · s) idle
  rw [updateBy, bind_of_ok stopped]
  rfl

/-- A time that is too long breaks the round off before anything is moved. -/
theorem updateBy_tooLong (running : s.running = true) (long : Span.tooLong ≤ dt) :
    ∃ t, updateBy dt s = .error .unrepresentableTime t := by
  have late : ∀ t, tick (Single.max dt 0) t = .error .unrepresentableTime t := by
    intro t
    rw [tick]
    cases span : Span.ofSeconds (Single.max dt 0) with
    | ok n => exact absurd long (Span.ofSeconds_max_ok_iff.mp ⟨n, span⟩)
    | error e =>
      rw [Span.ofSeconds_error span]
      rfl
  have began : ask Session.running s = .ok true s := congrArg (EStateM.Result.ok · s) running
  have taken : takeInbox s = .ok s.inbox { s with inbox := [] } := rfl
  refine ⟨{ s with inbox := [] }, ?_⟩
  rw [updateBy, bind_of_ok began, if_pos rfl, bind_of_ok taken]
  exact bind_of_error (late _)

end Play

/-! ## Calls -/

namespace Call

/-- The time that a call lets pass, if it is an update. -/
def time? (s : Session) : Call → Option Float32
  | .script .update => some s.config.frameTime
  | .script (.updateBy dt) => some dt
  | _ => none

/-- A call that lets time pass is an update by that time. -/
theorem run_of_time? {c : Call} {s : Session} {dt : Float32} (h : c.time? s = some dt) :
    c.run s = Play.updateBy dt s := by
  cases c with
  | script c =>
    cases c with
    | update =>
      cases h
      exact Play.update_apply s
    | updateBy dt =>
      cases h
      rfl
    | _ => cases h
  | _ => cases h

/-- Does a call let more time pass than a span of time can hold? -/
def Overlong (s : Session) (c : Call) : Prop :=
  s.running = true ∧ ∃ dt, c.time? s = some dt ∧ Span.tooLong ≤ dt

/-- The sounds that a call hands over. -/
def sounds : Call → List Sound
  | .loadScene scene => scene.sounds
  | .addSounds l => l
  | _ => []

end Call

namespace Play

variable {s : Session}

theorem safe_updateBy (dt : Float32) :
    (updateBy dt).Safe (s.running = true ∧ Span.tooLong ≤ dt) s := by
  by_cases running : s.running = true
  · exact (sure_updateBy s).mono fun long => ⟨running, long⟩
  · exact safe_of_ok (updateBy_of_idle dt (Bool.eq_false_iff.mpr running)) rfl

theorem safe_scriptCall (c : ScriptCall) : c.run.Safe ((Call.script c).Overlong s) s := by
  cases c with
  | start => exact thorough_sure.start sure_makeClone s
  | update =>
    have framed : (updateBy s.config.frameTime).Safe ((Call.script .update).Overlong s) s :=
      (safe_updateBy _).mono fun h => ⟨h.1, _, rfl, h.2⟩
    exact framed.congr (update_apply s)
  | updateBy dt => exact (safe_updateBy dt).mono fun h => ⟨h.1, _, rfl, h.2⟩
  | keyDown raw =>
    exact thorough_sure.discarded (thorough_sure.keyDown sure_launch raw) s
  | pointerDown p =>
    exact thorough_sure.discarded (thorough_sure.pointerDown sure_launch p) s
  | createClone source => exact thorough_sure.discarded (sure_createClone source) s

theorem sure_played {late : Prop} (id key : String) : Sure late (discard (playSound id key)) :=
  thorough_sure.discarded (sure_playSound id key)

theorem sure_keyUp {late : Prop} (raw : String) : Sure late (discard (keyUp raw)) := by
  refine thorough_sure.discarded ?_
  rw [keyUp]
  cases Key.parse? raw with
  | none => exact thorough_sure.pure false
  | some key => exact thorough_sure.bind (sure_change fun _ => rfl) fun _ => thorough_sure.pure true

end Play

/-- Why a call may break off. -/
theorem Call.fault {c : Call} {s t : Session} {e : Fault} (h : c.run s = .error e t) :
    e = .budgetExhausted ∨ e = .unrepresentableTime ∧ c.Overlong s
      ∨ e = .negativeSoundLength ∧ ¬s.Tuned := by
  cases c with
  | script c => exact (Play.safe_scriptCall c).fault e t h
  | playSound id key => exact (Play.sure_played id key s).fault e t h
  | keyUp raw => exact (Play.sure_keyUp raw s).fault e t h
  | _ => cases h

/-- A call that lets too much time pass breaks off over it. -/
theorem Call.fault_of_overlong {c : Call} {s : Session} (h : c.Overlong s) :
    ∃ t, c.run s = .error .unrepresentableTime t := by
  obtain ⟨running, dt, time, long⟩ := h
  obtain ⟨t, ht⟩ := Play.updateBy_tooLong running long
  exact ⟨t, (Call.run_of_time? time).trans ht⟩

/-! ## The table of sounds -/

namespace Session

theorem sounds_stopAll (s : Session) : s.stopAll.sounds = s.sounds := by
  rw [stopAll]
  split <;> rfl

/-- What loads leaves the sounds as they are. -/
theorem Loads.sounds {s t : Session} (h : s.Loads t) : t.sounds = s.sounds := by
  rw [h]
  rfl

theorem addSounds_congr {s t : Session} (h : s.sounds = t.sounds) (l : List BlockStage.Sound) :
    (s.addSounds l).sounds = (t.addSounds l).sounds := by
  rw [addSounds, addSounds, h]

theorem sounds_loadScene (s : Session) (scene : Scene) :
    (s.loadScene scene).2.sounds = (s.addSounds scene.sounds).sounds := by
  -- the session with an empty stage and all that the entities of the scene refer to
  let stocked : Session := (({ s.stopAll.clearStage with pendingScene := none }.defineVariables
    scene.definitions).addCostumes scene.costumes).addSounds scene.sounds
  have stored : stocked.sounds = (s.addSounds scene.sounds).sounds :=
    addSounds_congr s.sounds_stopAll scene.sounds
  have loaded := (loads_loadEntities scene.entities stocked).sounds
  rw [← stored, ← loaded, loadScene]
  dsimp only
  split
  · rename_i h
    rw [h]
    rfl
  · rfl

/-- **Sounds** come into the table by being handed over, and in no other way. -/
theorem sounds_run (c : Call) (s : Session) :
    (c.run.last s).sounds = (s.addSounds c.sounds).sounds := by
  cases c with
  | script c => exact (Play.safe_scriptCall c).sounds
  | entity id c => exact (skill_entityCall id c).act.sounds s
  | playSound id key => exact (@Play.sure_played False id key s).sounds
  | loadScene scene => exact s.sounds_loadScene scene
  | loadEntity e => exact (loads_loadEntity s e).sounds
  | register d =>
    show (Call.orSame s (s.enroll d)).sounds = s.sounds
    cases enrolled : s.enroll d with
    | ok t => exact (loads_enroll enrolled).sounds
    | error _ => rfl
  | saveTemplate id =>
    show (Call.orSame s (s.saveTemplate id)).sounds = s.sounds
    cases saved : s.saveTemplate id with
    | ok t => exact (loads_saveTemplate saved).sounds
    | error _ => rfl
  | addBehaviors id c => exact (loads_addBehaviors s id c).sounds
  | stopAll => exact s.sounds_stopAll
  | cleanup => exact s.sounds_stopAll
  | keyUp raw => exact (@Play.sure_keyUp False raw s).sounds
  | broadcast m => exact (tidy_broadcast m).act.sounds s
  | _ => rfl

/-- Handing over sounds of proper length keeps a table in tune. -/
theorem Tuned.addSounds {s : Session} {l : List BlockStage.Sound} (hl : ∀ x ∈ l, x.Sized)
    (hs : s.Tuned) : (s.addSounds l).Tuned := by
  induction l generalizing s with
  | nil => exact hs
  | cons x l ih =>
    have first : (s.addSounds [x]).Tuned := by
      intro y hy
      obtain ⟨e, he, rfl⟩ := List.mem_map.mp hy
      rcases Table.mem_insertEntry he with rfl | he
      · exact hl x List.mem_cons_self
      · exact hs e.2 (List.mem_map_of_mem he)
    exact ih (fun y hy => hl y (List.mem_cons_of_mem x hy)) first

theorem nodup_addSounds {s : Session} (l : List BlockStage.Sound) (hs : s.sounds.keys.Nodup) :
    (s.addSounds l).sounds.keys.Nodup := by
  induction l generalizing s with
  | nil => exact hs
  | cons x l ih => exact ih (s := s.addSounds [x]) (Table.nodup_keys_insert hs x.id x)

theorem nodup_sounds_of_visited {s : Session} (h : Visited s) : s.sounds.keys.Nodup := by
  induction h with
  | fresh => exact List.nodup_nil
  | call c _ ih =>
    rw [sounds_run]
    exact nodup_addSounds c.sounds ih

/-- As long as all sounds that are handed over are of proper length, all in the table are. -/
theorem tuned_of_visitedBy {s : Session} (h : VisitedBy (fun c => ∀ x ∈ c.sounds, x.Sized) s) :
    s.Tuned := by
  induction h with
  | fresh => exact nofun
  | @call s c hc _ ih => exact (ih.addSounds hc).of_sounds (sounds_run c s)

/-- All sounds can be played exactly if all are of proper length. -/
theorem tuned_iff {s : Session} (h : s.sounds.keys.Nodup) :
    s.Tuned ↔ ∀ id key, (Play.playSound id key).returns s = true := by
  constructor
  · exact fun tuned id key =>
      Play.returns_playSound_iff.mpr fun x hx => tuned x (mem_of_sound? hx)
  · intro plays x hx
    obtain ⟨⟨key, y⟩, he, rfl⟩ := List.mem_map.mp hx
    have found : s.sound? key = some y := by
      rw [sound?, (Table.mem_entries_iff h).mp he]
    exact Play.returns_playSound_iff.mp (plays "" key) y found

end Session

/-! ## When calls break off -/

/-- A step returns, unless it uses up the clone budget. -/
def Play.Holds {α : Type} (p : Play α) (s : Session) : Prop :=
  p.returns s = true ∨ p.Exhausts s

theorem Play.holds_of_fault {α : Type} {p : Play α} {s : Session}
    (h : ∀ e t, p s = .error e t → e = .budgetExhausted) : p.Holds s := by
  cases outcome : p s with
  | ok a t =>
    refine .inl ?_
    rw [returns, outcome]
  | error e t =>
    obtain rfl := h e t outcome
    exact .inr ⟨t, outcome⟩

theorem Play.returns_discard {α : Type} (p : Play α) (s : Session) :
    (discard p : Play Unit).returns s = p.returns s := by
  have forgets : (discard p : Play Unit) = p >>= fun _ => pure () := map_eq_pure_bind _ p
  rw [returns, returns, forgets]
  cases outcome : p s with
  | ok a t => rw [bind_of_ok outcome]; rfl
  | error e t => rw [bind_of_error outcome]

namespace Session

/-- If all sounds are of proper length, all calls return that do not let too much time pass. -/
theorem Tuned.holds {s : Session} (tuned : s.Tuned) {c : Call} (short : ¬c.Overlong s) :
    c.run.Holds s := by
  refine Play.holds_of_fault fun e t ht => ?_
  rcases Call.fault ht with used | ⟨-, long⟩ | ⟨-, no⟩
  · exact used
  · exact absurd long short
  · exact absurd tuned no

/-- What can break a call off at a session. -/
structure Unbroken (s : Session) : Prop where
  /-- A call breaks off over its time exactly if it lets too much time pass. -/
  time : ∀ c : Call, (∃ t, c.run s = .error .unrepresentableTime t) ↔ c.Overlong s
  /-- A host can play all sounds exactly if all are of proper length. -/
  sound : (∀ id key, (Call.playSound id key).run.returns s = true) ↔ s.Tuned
  /-- If they are, so can scripts, and nothing else breaks an action off. -/
  action : s.Tuned → ∀ entity a,
    (Play.perform Play.makeClone entity a).Holds s ∧ (Play.perform Play.queueClone entity a).Holds s
  /-- And then all calls return that do not let too much time pass. -/
  call : s.Tuned → ∀ c : Call, ¬c.Overlong s → c.run.Holds s
  /-- A call that comes to an end has a clone budget that suffices. -/
  finish : s.Tuned → ∀ c : ScriptCall, ¬(Call.script c).Overlong s → s.Finishes c →
    ∃ n, c.run.returns (s.withBudget n) = true
  /-- All sounds are of proper length if all are that were ever handed over. -/
  handed : VisitedBy (fun c => ∀ x ∈ c.sounds, x.Sized) s → s.Tuned

/-- **What breaks calls off** is a time of `2 ^ 64` seconds or more and a sound that is not of proper
    length, and nothing else. -/
theorem unbroken_of_visited {s : Session} (h : Visited s) : s.Unbroken where
  time c := by
    refine ⟨fun ⟨t, ht⟩ => ?_, Call.fault_of_overlong⟩
    rcases Call.fault ht with no | ⟨-, long⟩ | ⟨no, -⟩
    · cases no
    · exact long
    · cases no
  sound := by
    have same (id key : String) :
        (Call.playSound id key).run.returns s = (Play.playSound id key).returns s :=
      Play.returns_discard _ s
    rw [tuned_iff (nodup_sounds_of_visited h)]
    exact forall_congr' fun id => forall_congr' fun key => by rw [same]
  action tuned entity a := by
    have sure : ∀ clone : String → Play Unit, (∀ source, Play.Sure False (clone source)) →
        (Play.perform clone entity a).Holds s := by
      intro clone hc
      refine Play.holds_of_fault fun e t ht => ?_
      rcases (Play.thorough_sure.toClosed.perform hc entity a s).fault e t ht with
        used | ⟨-, no⟩ | ⟨-, no⟩
      · exact used
      · exact no.elim
      · exact absurd tuned no
    exact ⟨sure _ Play.sure_makeClone,
      sure _ fun source => Play.thorough_sure.queueClone (Play.sure_requestClone source)⟩
  call tuned c short := tuned.holds short
  finish tuned c short := by
    rintro ⟨n, hn⟩
    have same : (s.withBudget n).Tuned := tuned
    exact ⟨n, (same.holds (c := .script c) short).resolve_right hn⟩
  handed := tuned_of_visitedBy

/-- A session with a sound of two seconds, the first of which is cut off. -/
def humming : Session :=
  (fresh .usual (Generator.ofSeed 0) 5).after
    [.register (Spawn.new "a"), .addSounds [⟨"hum", "", "", some 2, some 1, none⟩], .script .start]

theorem unbroken_humming :
    humming.running = true ∧ humming.sounds.values.length = 1 ∧ humming.Unbroken :=
  ⟨by decide +kernel, by decide +kernel, unbroken_of_visited ((Visited.fresh _ _ _).after _)⟩

/-- The text of a scene in which a sound of negative length is played in every frame. -/
def discord : String :=
  "\x7b\"sounds\": [\x7b\"id\": \"hum\", \"duration\": -1\x7d], \"entities\": [\x7b\"id\": \"a\", "
    ++ "\"program\": [\x7b\"type\": \"every_frame\", \"statements\": \x7b\"DO\": [\x7b\"type\": "
    ++ "\"play_sound\", \"fields\": \x7b\"SOUND\": \"hum\"\x7d\x7d]\x7d\x7d]\x7d]\x7d"

/-- A session that has loaded a scene and has been started. -/
def opened (scene : Scene) : Session :=
  (fresh .usual (Generator.ofSeed 0) 5).after [.loadScene scene, .script .start]

/-- The scene is read, and the first update breaks off; without it, an update without end does. -/
theorem breaks_discord :
    (∃ scene, Scene.parse? discord = some scene ∧ (opened scene).running = true ∧
      ScriptCall.update.run.returns (opened scene) = false) ∧
    (opened ⟨"", [], [], [], []⟩).running = true ∧
      (ScriptCall.updateBy (Float32.ofBits 0x7F800000)).run.returns (opened ⟨"", [], [], [], []⟩)
        = false := by
  have played : ((Scene.parse? discord).map fun scene =>
      ((opened scene).running, ScriptCall.update.run.returns (opened scene)))
        = some (true, false) := by decide +kernel
  obtain ⟨scene, parsed, broken⟩ := Option.map_eq_some_iff.mp played
  obtain ⟨running, broken⟩ := Prod.mk.inj broken
  exact ⟨⟨scene, parsed, running, broken⟩, by decide +kernel, by decide +kernel⟩

end Session

end BlockStage
