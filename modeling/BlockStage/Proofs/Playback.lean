/-
  Playbacks: a handle stands for one playback.

  1. **Operations (`Player.Op`)** — whatever is done to a player is one of a few operations, and its
     history is a list of them.  Some operations end every playback, one ends that of a handle, and
     one ends those whose end has come (`Player.Op.Ends`).

  2. **Specification (`Player.Unaliased`)** — a handle is playing from the operation that gives it
     out until the first one that ends its playback, and never again, and no handle is given out
     twice.

  3. **The crux (`Player.Orderly`)** — a player knows the next handle, and only earlier ones are
     playing.  So a handle that is given out is new, and what has ended does not come back.

  4. **Whose playback it is (`Player.Since`)** — what was done since an entity was given a handle
     tells whether its playback is on.
-/
import BlockStage.Sound
import BlockStage.Proofs.Number.Order
import BlockStage.Proofs.Table

namespace BlockStage

/-- Where no key comes twice, what is kept of a table by its values is found as before. -/
theorem Table.get?_filter {κ β : Type} [BEq κ] [LawfulBEq κ] {t : Table κ β} (ht : t.keys.Nodup)
    (p : β → Bool) (k : κ) :
    (⟨t.entries.filter fun e => p e.2⟩ : Table κ β).get? k = (t.get? k).filter p := by
  have kept : (⟨t.entries.filter fun e => p e.2⟩ : Table κ β).keys.Nodup :=
    (List.filter_sublist.map Prod.fst).nodup ht
  refine Option.ext fun v => ?_
  rw [← mem_entries_iff kept, List.mem_filter, mem_entries_iff ht, Option.filter_eq_some_iff]

namespace Player

/-! ## Operations -/

/-- What is done to a player by scripts and hosts. -/
inductive Op where
  | play (entity : String) (sound : Sound) (now : Float)
  | complete (handle : Nat)
  | prune (now : Float)
  | stopAll
  | clear
  | enable (on : Bool)
  | takeRequests

namespace Op

/-- The player after an operation. -/
def apply : Op → Player → Player
  | .play entity sound now, p => (p.play entity sound now).2
  | .complete handle, p => (p.complete handle).2
  | .prune now, p => p.prune now
  | .stopAll, p => p.stopAll.2
  | .clear, p => p.clear
  | .enable on, p => { p with enabled := on }
  | .takeRequests, p => p.takeRequests.2

/-- The playback that an operation begins: its handle, and when it ends if that is known. -/
def begun? : Op → Player → Option (Nat × Option Float)
  | .play entity sound now, p => (p.play entity sound now).1.toOption
  | _, _ => none

/-- Does an operation end the playback of a handle that is to end at a certain time, if that is
    known?  A time has come when it is not ahead. -/
def Ends (handle : Nat) (stop : Option Float) : Op → Prop
  | .complete h => h = handle
  | .prune now => ∃ time ∈ stop, ¬now < time
  | .stopAll => True
  | .clear => True
  | _ => False

/-- Of times that are numbers: the known end is now or was before. -/
theorem ends_prune_iff {handle : Nat} {now time : Float} (hn : now.isNaN = false)
    (ht : time.isNaN = false) : (Op.prune now).Ends handle (some time) ↔ time ≤ now := by
  show (∃ t ∈ some time, ¬now < t) ↔ _
  rw [← Double.not_lt_iff ht hn]
  simp

end Op

/-- The player after operations, one after the other. -/
def after (p : Player) (ops : List Op) : Player := ops.foldl (fun p o => o.apply p) p

theorem after_append (p : Player) (l m : List Op) : p.after (l ++ m) = (p.after l).after m :=
  List.foldl_append

/-- Operations lead from one player to another. -/
def Evolves (p q : Player) : Prop := ∃ ops, q = p.after ops

namespace Evolves

variable {p q r : Player}

theorem refl (p : Player) : p.Evolves p := ⟨[], rfl⟩

theorem one (o : Op) : p.Evolves (o.apply p) := ⟨[o], rfl⟩

theorem trans (h : p.Evolves q) (k : q.Evolves r) : p.Evolves r := by
  obtain ⟨l, rfl⟩ := h
  obtain ⟨m, rfl⟩ := k
  exact ⟨l ++ m, (p.after_append l m).symm⟩

theorem of_eq (h : q = p) : p.Evolves q := h ▸ refl p

end Evolves

/-! ## One operation -/

variable {p : Player} {o : Op} {ops : List Op} {h : Nat} {stop : Option Float}

theorem isPlaying_iff : p.isPlaying h = true ↔ ∃ stop, p.active.get? h = some stop :=
  Option.isSome_iff_exists

theorem begin_books (p : Player) (handle : Nat) (entity : String) (sound : Sound)
    (endsAt : Option Float) : (p.begin handle entity sound endsAt).nextHandle = p.nextHandle ∧
      (p.begin handle entity sound endsAt).active = p.active.insert handle endsAt := by
  obtain ⟨enabled, capacity, triggers, requests, active, nextHandle⟩ := p
  cases enabled <;> exact ⟨rfl, rfl⟩

/-- Playing uses up a handle, and if the length of the sound is known or unknown, but not at fault,
    then the handle is on. -/
theorem play_cases (p : Player) (entity : String) (sound : Sound) (now : Float) :
    (p.play entity sound now).2.nextHandle = p.nextHandle + 1 ∧
      ((∃ e, (p.play entity sound now).1 = .error e ∧
          (p.play entity sound now).2.active = p.active) ∨
        ∃ stop, (p.play entity sound now).1 = .ok (p.nextHandle, stop) ∧
          (p.play entity sound now).2.active = p.active.insert p.nextHandle stop) := by
  rw [play]
  dsimp only [takeHandle]
  split
  · exact ⟨rfl, .inl ⟨_, rfl, rfl⟩⟩
  · exact ⟨(begin_books _ _ _ _ _).1, .inr ⟨_, rfl, (begin_books _ _ _ _ _).2⟩⟩

/-- No operation gives a handle back. -/
theorem nextHandle_apply (o : Op) (p : Player) : p.nextHandle ≤ (o.apply p).nextHandle := by
  cases o with
  | play entity sound now => exact (play_cases p entity sound now).1 ▸ Nat.le_succ _
  | _ => exact Nat.le_refl _

/-- The handle that is given out is the next one. -/
theorem begun_eq (hb : o.begun? p = some (h, stop)) :
    h = p.nextHandle ∧ (o.apply p).nextHandle = p.nextHandle + 1 := by
  cases o with
  | play entity sound now =>
    obtain ⟨next, ⟨e, answer, -⟩ | ⟨stop', answer, -⟩⟩ := play_cases p entity sound now
    · rw [Op.begun?, answer] at hb
      cases hb
    · rw [Op.begun?, answer] at hb
      obtain ⟨rfl, -⟩ := Prod.mk.inj (Option.some.inj hb)
      exact ⟨rfl, next⟩
  | _ => cases hb

/-- No handle is playing twice, and only handles that have been given out are. -/
structure Orderly (p : Player) : Prop where
  once : p.active.keys.Nodup
  given : ∀ h ∈ p.active.keys, h < p.nextHandle

theorem orderly_new (capacity : Nat) : (new capacity).Orderly :=
  ⟨List.nodup_nil, fun _ none => (List.not_mem_nil none).elim⟩

namespace Orderly

variable (hp : p.Orderly)
include hp

theorem get?_nextHandle : p.active.get? p.nextHandle = none := by
  refine Option.not_isSome_iff_eq_none.mp fun on => ?_
  exact Nat.lt_irrefl _ (hp.given _ (Table.mem_keys.mpr on))

/-- **What is playing after an operation** has been begun by it, or was playing and is not ended by
    it. -/
theorem get?_apply_iff (o : Op) (h : Nat) (stop : Option Float) :
    (o.apply p).active.get? h = some stop ↔
      o.begun? p = some (h, stop) ∨ p.active.get? h = some stop ∧ ¬o.Ends h stop := by
  have silent (o : Op) (none : o.begun? p = none) (P : Prop) :
      o.begun? p = some (h, stop) ∨ P ↔ P := by
    rw [none]
    exact or_iff_right fun h => (by cases h)
  cases o with
  | play entity sound now =>
    have stays (P : Prop) : P ∧ ¬(Op.play entity sound now).Ends h stop ↔ P := and_iff_left not_false
    obtain ⟨-, ⟨e, answer, active⟩ | ⟨stop', answer, active⟩⟩ := play_cases p entity sound now
    · rw [Op.apply, active, stays, Op.begun?, answer]
      exact (or_iff_right fun h => (by cases h)).symm
    · rw [Op.apply, active, stays, Op.begun?, answer, Table.get?_insert]
      by_cases same : h = p.nextHandle
      · subst same
        rw [hp.get?_nextHandle, if_pos (beq_self_eq_true _)]
        simp [Except.toOption]
      · rw [if_neg (mt eq_of_beq same)]
        refine (or_iff_right fun begun => same ?_).symm
        exact (Prod.mk.inj (Option.some.inj begun)).1.symm
  | complete handle =>
    rw [silent _ rfl]
    show (p.active.erase handle).get? h = some stop ↔ _ ∧ ¬handle = h
    rw [Table.get?_erase]
    by_cases same : h = handle
    · rw [if_pos (beq_iff_eq.mpr same)]
      exact iff_of_false (fun h => (by cases h)) fun ended => ended.2 same.symm
    · rw [if_neg (mt eq_of_beq same)]
      exact (and_iff_left (Ne.symm same)).symm
  | prune now =>
    rw [silent _ rfl]
    show (⟨p.active.entries.filter fun e => stillOn now e.2⟩ : Table Nat (Option Float)).get? h
      = some stop ↔ _ ∧ ¬∃ time ∈ stop, ¬now < time
    rw [Table.get?_filter hp.once, Option.filter_eq_some_iff]
    cases stop <;> simp [stillOn]
  | stopAll | clear =>
    rw [silent _ rfl]
    exact iff_of_false (fun h => (by cases h)) fun ended => ended.2 trivial
  | enable on | takeRequests =>
    rw [silent _ rfl]
    exact (and_iff_left not_false).symm

theorem apply (o : Op) : (o.apply p).Orderly := by
  have later : ∀ h ∈ p.active.keys, h < (o.apply p).nextHandle :=
    fun h on => Nat.lt_of_lt_of_le (hp.given h on) (nextHandle_apply o p)
  cases o with
  | play entity sound now =>
    obtain ⟨next, ⟨e, -, active⟩ | ⟨stop, -, active⟩⟩ := play_cases p entity sound now
    · exact ⟨active ▸ hp.once, active ▸ later⟩
    · refine ⟨active ▸ Table.nodup_keys_insert hp.once _ _, fun h on => ?_⟩
      rw [Op.apply, active, Table.mem_keys, Table.contains_insert, Bool.or_eq_true] at on
      rcases on with same | old
      · rw [Op.apply, next, eq_of_beq same]
        exact Nat.lt_succ_self _
      · exact later h (Table.mem_keys.mpr old)
  | complete handle =>
    exact ⟨Table.nodup_keys_erase hp.once handle,
      fun h on => later h ((List.filter_sublist.map Prod.fst).subset on)⟩
  | prune now =>
    exact ⟨(List.filter_sublist.map Prod.fst).nodup hp.once,
      fun h on => later h ((List.filter_sublist.map Prod.fst).subset on)⟩
  | stopAll | clear => exact ⟨List.nodup_nil, fun _ none => (List.not_mem_nil none).elim⟩
  | enable on | takeRequests => exact ⟨hp.once, hp.given⟩

theorem after (ops : List Op) : (p.after ops).Orderly := by
  induction ops generalizing p with
  | nil => exact hp
  | cons o ops ih => exact ih (hp.apply o)

end Orderly

/-! ## Histories -/

theorem nextHandle_after (p : Player) (ops : List Op) : p.nextHandle ≤ (p.after ops).nextHandle := by
  induction ops generalizing p with
  | nil => exact Nat.le_refl _
  | cons o ops ih => exact Nat.le_trans (nextHandle_apply o p) (ih (o.apply p))

theorem Evolves.nextHandle {q : Player} (h : p.Evolves q) : p.nextHandle ≤ q.nextHandle := by
  obtain ⟨ops, rfl⟩ := h
  exact p.nextHandle_after ops

/-- **A handle that has been given out** is playing later only if it was playing all along. -/
theorem Orderly.get?_after_iff (hp : p.Orderly) (old : h < p.nextHandle) :
    (p.after ops).active.get? h = some stop ↔
      p.active.get? h = some stop ∧ ∀ e ∈ ops, ¬e.Ends h stop := by
  induction ops generalizing p with
  | nil => simp [Player.after]
  | cons o ops ih =>
    have given : o.begun? p ≠ some (h, stop) :=
      fun begun => Nat.ne_of_lt old (begun_eq begun).1
    show ((o.apply p).after ops).active.get? h = some stop ↔ _
    rw [ih (hp.apply o) (Nat.lt_of_lt_of_le old (nextHandle_apply o p)), hp.get?_apply_iff,
      or_iff_right given, List.forall_mem_cons, and_assoc]

/-- What is playing later was playing before, if it had been given out. -/
theorem Evolves.isPlaying {q : Player} (hp : p.Orderly) (k : p.Evolves q) (old : h < p.nextHandle)
    (on : q.isPlaying h = true) : p.isPlaying h = true := by
  obtain ⟨ops, rfl⟩ := k
  obtain ⟨stop, on⟩ := isPlaying_iff.mp on
  exact isPlaying_iff.mpr ⟨stop, ((hp.get?_after_iff old).mp on).1⟩

/-- What is playing has been begun. -/
theorem begun_of_isPlaying {capacity : Nat} (on : ((new capacity).after ops).isPlaying h = true) :
    ∃ before o rest stop, ops = before ++ o :: rest ∧
      o.begun? ((new capacity).after before) = some (h, stop) := by
  induction ops using List.reverseRecOn with
  | nil => cases on
  | append_singleton ops o ih =>
    obtain ⟨stop, on⟩ := isPlaying_iff.mp on
    rw [after_append] at on
    rcases (((orderly_new capacity).after ops).get?_apply_iff o h stop).mp on with begun | ⟨on, -⟩
    · exact ⟨ops, o, [], stop, rfl, begun⟩
    · obtain ⟨before, o', rest, stop, rfl, begun⟩ := ih (isPlaying_iff.mpr ⟨stop, on⟩)
      exact ⟨before, o', rest ++ [o], stop, by simp, begun⟩

/-! ## The specification -/

/-- What can be said of the handles of a player after operations. -/
structure Unaliased (p : Player) (ops : List Op) : Prop where
  /-- From the operation that gives it out a handle is playing as long as no operation has ended its
      playback, whatever else is done, and once one has, it is not playing any more. -/
  lasting : ∀ before o rest h stop, ops = before ++ o :: rest →
    o.begun? (p.after before) = some (h, stop) →
    ((p.after ops).isPlaying h = true ↔ ∀ e ∈ rest, ¬e.Ends h stop)
  /-- A handle that is playing has been given out. -/
  begun : ∀ h, (p.after ops).isPlaying h = true → ∃ before o rest stop,
    ops = before ++ o :: rest ∧ o.begun? (p.after before) = some (h, stop)
  /-- No handle is given out twice. -/
  distinct : ∀ before o between o' rest h stop stop',
    ops = before ++ o :: (between ++ o' :: rest) → o.begun? (p.after before) = some (h, stop) →
    o'.begun? (p.after (before ++ o :: between)) ≠ some (h, stop')

/-- **Handles do not alias**, whatever is done to a player. -/
theorem unaliased_new (capacity : Nat) (ops : List Op) : (new capacity).Unaliased ops where
  lasting before o rest h stop hl begun := by
    subst hl
    have orderly := (orderly_new capacity).after before
    obtain ⟨rfl, next⟩ := begun_eq begun
    have on := (orderly.get?_apply_iff o _ stop).mpr (.inl begun)
    have old : ((new capacity).after before).nextHandle
        < (o.apply ((new capacity).after before)).nextHandle := next ▸ Nat.lt_succ_self _
    have later (stop' : Option Float) :
        ((o.apply ((new capacity).after before)).after rest).active.get? _ = some stop' ↔ _ :=
      (orderly.apply o).get?_after_iff old
    rw [after_append, isPlaying_iff]
    constructor
    · rintro ⟨stop', still⟩
      obtain ⟨same, unended⟩ := (later stop').mp still
      obtain rfl := Option.some.inj (on.symm.trans same)
      exact unended
    · exact fun unended => ⟨stop, (later stop).mpr ⟨on, unended⟩⟩
  begun h on := begun_of_isPlaying on
  distinct before o between o' rest h stop stop' hl begun again := by
    have later := nextHandle_after (o.apply ((new capacity).after before)) between
    rw [(begun_eq begun).2] at later
    rw [after_append] at again
    have first := (begun_eq begun).1
    have second := (begun_eq again).1
    change h = (Player.after (o.apply ((new capacity).after before)) between).nextHandle at second
    omega

/-! ## Whose playback it is -/

/-- The player has a history. -/
def Reached (p : Player) : Prop := ∃ capacity ops, p = (new capacity).after ops

/-- In the history of the player an entity played a sound and was given a handle, and these
    operations followed. -/
def Since (p : Player) (entity : String) (h : Nat) (stop : Option Float) (ops : List Op) : Prop :=
  ∃ capacity before sound now,
    p = (new capacity).after (before ++ .play entity sound now :: ops) ∧
      (Op.play entity sound now).begun? ((new capacity).after before) = some (h, stop)

/-- In the history of the player a handle was given out when an entity played a sound. -/
def Began (p : Player) (entity : String) (h : Nat) : Prop := ∃ stop ops, p.Since entity h stop ops

variable {q : Player} {entity : String}

theorem Reached.orderly (hp : p.Reached) : p.Orderly := by
  obtain ⟨capacity, ops, rfl⟩ := hp
  exact (orderly_new capacity).after ops

theorem Reached.evolves (hp : p.Reached) (k : p.Evolves q) : q.Reached := by
  obtain ⟨capacity, ops, rfl⟩ := hp
  obtain ⟨rest, rfl⟩ := k
  exact ⟨capacity, ops ++ rest, (after_append _ ops rest).symm⟩

/-- What is done next goes behind what was done since. -/
theorem Since.after (hs : p.Since entity h stop ops) (more : List Op) :
    (p.after more).Since entity h stop (ops ++ more) := by
  obtain ⟨capacity, before, sound, now, rfl, begun⟩ := hs
  refine ⟨capacity, before, sound, now, ?_, begun⟩
  rw [← after_append, List.append_assoc, List.cons_append]

/-- **A playback is on** as long as no operation since has ended it. -/
theorem Since.isPlaying_iff (hs : p.Since entity h stop ops) :
    p.isPlaying h = true ↔ ∀ e ∈ ops, ¬e.Ends h stop := by
  obtain ⟨capacity, before, sound, now, rfl, begun⟩ := hs
  exact (unaliased_new capacity _).lasting before _ ops h stop rfl begun

theorem Began.evolves (hb : p.Began entity h) (k : p.Evolves q) : q.Began entity h := by
  obtain ⟨stop, ops, since⟩ := hb
  obtain ⟨more, rfl⟩ := k
  exact ⟨stop, ops ++ more, since.after more⟩

/-- A handle that was given out will not be the next one. -/
theorem Began.lt (hb : p.Began entity h) : h < p.nextHandle := by
  obtain ⟨stop, ops, capacity, before, sound, now, rfl, begun⟩ := hb
  rw [after_append]
  refine Nat.lt_of_lt_of_le ?_
    (nextHandle_after ((Op.play entity sound now).apply ((new capacity).after before)) ops)
  rw [(begun_eq begun).2, (begun_eq begun).1]
  exact Nat.lt_succ_self _

/-- Playing gives out a handle. -/
theorem Reached.began (hp : p.Reached) {sound : Sound} {now : Float}
    (answer : (p.play entity sound now).1 = .ok (h, stop)) :
    (p.play entity sound now).2.Began entity h := by
  obtain ⟨capacity, before, rfl⟩ := hp
  refine ⟨stop, [], capacity, before, sound, now,
    ((new capacity).after_append before [.play entity sound now]).symm, ?_⟩
  rw [Op.begun?, answer]
  rfl

end Player

end BlockStage
