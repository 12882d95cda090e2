/-
  Coming and going: how the cast of a stage changes.

  1. **The register** — a stage keeps the ids in order, the handle of each id, and the actors behind
     the handles.  `Stage.Orderly` says that the three agree: each id stands in the list once, its
     handle leads to an actor that bears it, and no actor is without a registered id.

  2. **Spawning** adds one actor under a handle that has never been given out (`receive`), and one id
     (`Orderly.spawn`); **despawning** takes away an id and the actor that bears it
     (`Orderly.despawn`); **clearing** dismisses everyone who bears an id, and that is everyone
     (`Orderly.clear`).

  3. **The crux** — handles are given out in ascending order and ids are taken only once, so what is
     added to one of the three is new to the others too.
-/
import BlockStage.Proofs.Stage.Cast
import Mathlib.Data.List.Nodup

namespace BlockStage

namespace Stage

variable {α : Type}

/-! ## Order -/

/-- The ids, their handles and the actors agree, and every actor is dressed. -/
structure Orderly (s : Stage α) : Prop where
  keys : s.actors.keys.Nodup
  below : ∀ h ∈ s.actors.keys, h < s.nextHandle
  ids : s.ids.Nodup
  listed : ∀ id, id ∈ s.ids ↔ s.index.contains id = true
  bears : ∀ id h, s.find? id = some h → ∃ a, s.actor? h = some a ∧ a.id = id
  named : ∀ h a, s.actor? h = some a → s.find? a.id = some h
  dressed : s.Dressed

/-- A stage without actors and ids. -/
theorem Orderly.empty {s : Stage α} (ids : s.ids = []) (index : s.index = .empty)
    (actors : s.actors = .empty) : s.Orderly where
  keys := by
    rw [actors]
    exact List.nodup_nil
  below h hh := by
    rw [actors] at hh
    cases hh
  ids := by
    rw [ids]
    exact List.nodup_nil
  listed id := by
    rw [ids, index]
    exact ⟨fun h => (by cases h), fun h => (by cases h)⟩
  bears id h hf := by
    rw [find?, index] at hf
    cases hf
  named h a ha := by
    rw [actor?, actors] at ha
    cases ha
  dressed e he := by
    rw [actors] at he
    cases he

namespace Orderly

variable {s t : Stage α}

theorem new (canvas : Canvas α) (physics : PhysicsConfig α) : (Stage.new canvas physics).Orderly :=
  .empty rfl rfl rfl

theorem sameCast (hs : s.Orderly) (h : SameCast s t) : t.Orderly where
  keys := h.keys ▸ hs.keys
  below := h.keys ▸ h.next ▸ hs.below
  ids := h.ids ▸ hs.ids
  listed := h.ids ▸ h.index ▸ hs.listed
  -- an actor has a counterpart of the same role under the same handle, so of the same id
  bears id x hf := by
    rw [h.find?] at hf
    obtain ⟨a, ha, rfl⟩ := hs.bears id x hf
    have same := h.role x
    rw [ha] at same
    obtain ⟨b, hb, role⟩ := Option.map_eq_some_iff.mp same
    exact ⟨b, hb, congrArg Role.id role⟩
  named x b hb := by
    have same := h.role x
    rw [hb] at same
    obtain ⟨a, ha, role⟩ := Option.map_eq_some_iff.mp same.symm
    have id : a.id = b.id := congrArg Role.id role
    rw [h.find?, ← id]
    exact hs.named x a ha
  dressed := h.dressed hs.dressed

/-- An id is found exactly if it is listed. -/
theorem mem_ids (hs : s.Orderly) {id : String} : id ∈ s.ids ↔ ∃ h, s.find? id = some h := by
  rw [hs.listed, Table.contains, Option.isSome_iff_exists]
  exact Iff.rfl

theorem mem_keys_of_find? (hs : s.Orderly) {id : String} {h : Handle} (hf : s.find? id = some h) :
    h ∈ s.actors.keys := by
  obtain ⟨a, ha, _⟩ := hs.bears id h hf
  exact Table.mem_keys.mpr (Option.isSome_iff_exists.mpr ⟨a, ha⟩)

/-- A new handle leads to nobody. -/
theorem fresh (hs : s.Orderly) : s.nextHandle ∉ s.actors.keys :=
  fun h => Nat.lt_irrefl _ (hs.below _ h)

end Orderly

/-! ## Spawning -/

/-- An actor comes under the next handle, as yet without an id. -/
def receive (s : Stage α) (a : Actor α) : Stage α :=
  { s with actors := s.actors.insert s.nextHandle a, nextHandle := s.nextHandle + 1 }

theorem actor?_receive (s : Stage α) (a : Actor α) (x : Handle) :
    (s.receive a).actor? x = if x = s.nextHandle then some a else s.actor? x := by
  rw [actor?, receive, Table.get?_insert]
  exact if_congr beq_iff_eq rfl rfl

/-- Whoever comes on stage is received, gets the body it asks for, and then its id. -/
theorem eq_of_spawn [Scalar α] {s t : Stage α} {d : Spawn α} {h : Handle}
    (ht : s.spawn d = .ok (h, t)) : h = s.nextHandle ∧
      t = { (s.receive (s.actorOf d)).embody s.nextHandle d.body with
        index := ((s.receive (s.actorOf d)).embody s.nextHandle d.body).index.insert d.id s.nextHandle
        ids := ((s.receive (s.actorOf d)).embody s.nextHandle d.body).ids ++ [d.id] } := by
  rw [spawn] at ht
  split at ht
  · cases ht
  split at ht
  · cases ht
  obtain ⟨same, stage⟩ := Prod.mk.inj (Except.ok.inj ht)
  exact ⟨same.symm, stage.symm⟩

/-- Nobody comes on stage under an id that is taken. -/
theorem free_of_spawn [Scalar α] {s t : Stage α} {d : Spawn α} {h : Handle}
    (ht : s.spawn d = .ok (h, t)) : s.index.contains d.id = false := by
  rw [spawn] at ht
  split at ht
  · cases ht
  split at ht
  · cases ht
  · rename_i free
    exact Bool.eq_false_iff.mpr free

/-- Whether or not an actor asks for a body, what putting one into physics keeps is kept. -/
theorem embody_keeps [Scalar α] {P : Stage α → Prop} {s : Stage α} {h : Handle} (hs : P s)
    (enabled : ∀ settings, P (s.enablePhysics h settings).2) (body : Option (BodySettings α)) :
    P (s.embody h body) := by
  cases body with
  | none => exact hs
  | some settings => exact enabled settings

theorem dressed_actorOf [Scalar α] (s : Stage α) (d : Spawn α) : (s.actorOf d).look.Dressed := by
  intro some
  have : 0 < d.costumes.length := List.length_pos_iff.mpr some
  show min d.costume (d.costumes.length - 1) < d.costumes.length
  omega

/-- What spawning does: an actor comes last, under a new handle and a new id, and nobody is woken. -/
structure Spawned (s : Stage α) (d : Spawn α) (h : Handle) (t : Stage α) : Prop where
  handle : h = s.nextHandle
  next : t.nextHandle = h + 1
  free : s.index.contains d.id = false
  ids : t.ids = s.ids ++ [d.id]
  index : t.index = s.index.insert d.id h
  cast : t.cast = s.cast ++ [(h, ⟨d.id, d.prototype, d.costumes⟩)]
  dressed : s.Dressed → t.Dressed
  stopped : ∀ x, s.isStopped x = true → t.isStopped x = true

theorem spawned_of_spawn [Scalar α] {s t : Stage α} {d : Spawn α} {h : Handle}
    (new : s.nextHandle ∉ s.actors.keys) (ht : s.spawn d = .ok (h, t)) : Spawned s d h t := by
  have free := free_of_spawn ht
  obtain ⟨rfl, rfl⟩ := eq_of_spawn ht
  let u := s.receive (s.actorOf d)
  have kept : Calm u (u.embody s.nextHandle d.body) :=
    embody_keeps (.refl u) (u.calm_enablePhysics _) d.body
  have entries : u.actors.entries = s.actors.entries ++ [(s.nextHandle, s.actorOf d)] :=
    Table.insertEntry_of_notMem new
  refine
    { handle := rfl
      next := kept.next
      free := free
      ids := congrArg (· ++ [d.id]) kept.ids
      index := congrArg (·.insert d.id s.nextHandle) kept.index
      cast := kept.cast.trans ?_
      dressed := fun hs => kept.dressed fun e he => ?_
      stopped := fun x hx => kept.stopped x ?_ }
  · rw [Stage.cast, entries, List.map_append]
    rfl
  · rw [entries, List.mem_append] at he
    rcases he with he | he
    · exact hs e he
    · rw [List.mem_singleton] at he
      exact he ▸ s.dressed_actorOf d
  · -- nobody has been behind the new handle
    have old : x ≠ s.nextHandle := by
      rintro rfl
      rw [isStopped, actor?] at hx
      cases there : s.actors.get? s.nextHandle with
      | none =>
        rw [there] at hx
        cases hx
      | some a => exact new (Table.mem_keys.mpr (by rw [Table.contains, there, Option.isSome_some]))
    rw [isStopped, actor?_receive, if_neg old]
    exact hx

/-- Spawning without a body, said outright. -/
theorem spawn_of_bare [Scalar α] {s : Stage α} {d : Spawn α} (named : isBlankText d.id = false)
    (free : s.index.contains d.id = false) (bare : d.body = none) :
    s.spawn d = .ok (s.nextHandle,
      { s with
        actors := s.actors.insert s.nextHandle (s.actorOf d)
        nextHandle := s.nextHandle + 1
        index := s.index.insert d.id s.nextHandle
        ids := s.ids ++ [d.id] }) := by
  rw [spawn, contains, named, free, bare]
  rfl

namespace Spawned

variable {s t : Stage α} {d : Spawn α} {h : Handle}

/-- The new handle leads to the new actor, all others lead where they led. -/
theorem role (k : Spawned s d h t) (hs : s.Orderly) (x : Handle) :
    (t.actor? x).map Actor.role
      = if x == h then some ⟨d.id, d.prototype, d.costumes⟩ else (s.actor? x).map Actor.role := by
  have new : h ∉ s.cast.map Prod.fst := by
    rw [k.handle, ← keys_eq]
    exact hs.fresh
  rw [role_eq, role_eq, k.cast, ← Table.insertEntry_of_notMem new, Table.lookup_insertEntry]

theorem find? (k : Spawned s d h t) (j : String) :
    t.find? j = if j == d.id then some h else s.find? j := by
  rw [Stage.find?, k.index, Table.get?_insert]
  rfl

theorem notMem (k : Spawned s d h t) (hs : s.Orderly) : d.id ∉ s.ids := by
  rw [hs.listed, k.free]
  exact Bool.false_ne_true

/-- Spawning keeps the order. -/
theorem orderly (k : Spawned s d h t) (hs : s.Orderly) : t.Orderly where
  keys := by
    rw [keys_eq, k.cast, List.map_append, ← keys_eq, k.handle]
    exact List.nodup_append_comm.mp (List.nodup_cons.mpr ⟨hs.fresh, hs.keys⟩)
  below x hx := by
    rw [keys_eq, k.cast, List.map_append, ← keys_eq, List.mem_append] at hx
    rw [k.next]
    rcases hx with hx | hx
    · rw [k.handle]
      exact Nat.lt_succ_of_lt (hs.below x hx)
    · rw [List.map_singleton, List.mem_singleton] at hx
      exact hx ▸ Nat.lt_succ_self _
  ids := by
    rw [k.ids]
    exact List.nodup_append_comm.mp (List.nodup_cons.mpr ⟨k.notMem hs, hs.ids⟩)
  listed j := by
    rw [k.ids, k.index, List.mem_append, List.mem_singleton, Table.contains_insert, Bool.or_eq_true,
      beq_iff_eq, hs.listed, or_comm]
  bears j x hf := by
    have role := k.role hs x
    rw [k.find?] at hf
    -- the new id leads to the new handle, and old ids lead where they led
    by_cases named : (j == d.id) = true
    · rw [if_pos named] at hf
      obtain rfl := Option.some.inj hf
      rw [if_pos (beq_self_eq_true _)] at role
      obtain ⟨a, ha, role⟩ := Option.map_eq_some_iff.mp role
      exact ⟨a, ha, (congrArg Role.id role).trans (eq_of_beq named).symm⟩
    · rw [if_neg named] at hf
      obtain ⟨b, hb, rfl⟩ := hs.bears j x hf
      have old : ¬(x == h) = true := fun same =>
        hs.fresh (k.handle ▸ eq_of_beq same ▸ hs.mem_keys_of_find? hf)
      rw [if_neg old, hb] at role
      obtain ⟨a, ha, role⟩ := Option.map_eq_some_iff.mp role
      exact ⟨a, ha, congrArg Role.id role⟩
  named x a ha := by
    have role := k.role hs x
    rw [ha] at role
    rw [k.find?]
    -- the new handle bears the new id, and nobody else does, since the id was free
    by_cases new : (x == h) = true
    · rw [if_pos new] at role
      have id : a.id = d.id := congrArg Role.id (Option.some.inj role)
      rw [id, if_pos (beq_self_eq_true _), eq_of_beq new]
    · rw [if_neg new] at role
      obtain ⟨b, hb, role⟩ := Option.map_eq_some_iff.mp role.symm
      have id : b.id = a.id := congrArg Role.id role
      have found := hs.named x b hb
      have other : ¬(a.id == d.id) = true := fun same =>
        k.notMem hs (hs.mem_ids.mpr ⟨x, eq_of_beq same ▸ id ▸ found⟩)
      rw [if_neg other, ← id]
      exact found
  dressed := k.dressed hs.dressed

end Spawned

/-! ## Despawning -/

/-- What despawning does: an id and the actor behind it are gone, and nobody else is woken. -/
structure Despawned (s : Stage α) (id : String) (h : Handle) (t : Stage α) : Prop where
  found : s.find? id = some h
  next : t.nextHandle = s.nextHandle
  ids : t.ids = s.ids.filter fun j => j != id
  index : t.index = s.index.erase id
  cast : t.cast = s.cast.filter fun e => !(h == e.1)
  dressed : s.Dressed → t.Dressed
  stopped : ∀ x, x ≠ h → s.isStopped x = true → t.isStopped x = true

theorem despawned_of_find? [Scalar α] {s : Stage α} {id : String} {h : Handle} (hf : s.find? id = some h) :
    Despawned s id h (s.despawn id).2 ∧ (s.despawn id).1 = (s.actor? h).isSome := by
  rw [despawn, hf]
  let u : Stage α :=
    { s with index := s.index.erase id, ids := s.ids.filter fun other => other != id }
  let v := (((u.children h).foldl (fun s child => (s.detach child).2) u).detach h).2
  have kept : Calm u v := (calm_foldl _ (fun s x => s.calm_detach x) _ u).trans (calm_detach _ h)
  -- leaving children and parent keeps the cast, so the actor itself is all that goes
  refine ⟨⟨hf, kept.next, kept.ids, kept.index, ?_, fun hs e he => ?_, fun x other hx => ?_⟩, ?_⟩
  · show ((v.actors.entries.filter fun e => !(h == e.1)).map fun e => (e.1, e.2.role)) = _
    have cast : v.cast = s.cast := kept.cast
    rw [← cast, Stage.cast, List.filter_map]
    rfl
  · exact kept.dressed hs e (List.mem_of_mem_filter he)
  · have still := kept.stopped x hx
    have left : ¬(x == h) = true := fun same => other (eq_of_beq same)
    have acted : (v.actors.erase h).get? x = v.actors.get? x := by
      rw [Table.get?_erase, if_neg left]
    rw [isStopped, actor?, ← acted] at still
    exact still
  · show (v.actor? h).isSome = (u.actor? h).isSome
    rw [← Option.isSome_map (f := Actor.role), kept.role, Option.isSome_map]

/-- Despawning someone who is not attached to anyone and has no body, said outright. -/
theorem despawn_of_lone [Scalar α] {s : Stage α} {id : String} {h : Handle} {a : Actor α}
    (found : s.find? id = some h) (there : s.actor? h = some a) (parent : a.parent = none)
    (children : a.children = []) (bare : a.body = none) :
    s.despawn id = (true,
      { s with
        index := s.index.erase id
        ids := s.ids.filter fun other => other != id
        actors := s.actors.erase h }) := by
  let t : Stage α :=
    { s with index := s.index.erase id, ids := s.ids.filter fun other => other != id }
  have there' : t.actor? h = some a := there
  have childless : t.children h = [] := by rw [Stage.children, there']; exact children
  have free : (t.detach h).2 = t := by
    rw [detach, parent?, there', Option.bind_some, parent]
  have shapeless : t.body? h = none := by rw [Stage.body?, there', Option.bind_some, bare]
  rw [despawn, found]
  show (((((t.children h).foldl (fun s child => (s.detach child).2) t).detach h).2.actor? h).isSome,
    _) = _
  rw [childless, List.foldl_nil, free, there', disembody, shapeless]
  rfl

namespace Despawned

variable {s t : Stage α} {id : String} {h : Handle}

/-- The handle leads to nobody any more, all others lead where they led. -/
theorem role (k : Despawned s id h t) (x : Handle) :
    (t.actor? x).map Actor.role = if x == h then none else (s.actor? x).map Actor.role := by
  rw [role_eq, role_eq, k.cast]
  exact Table.get?_erase ⟨s.cast⟩ h x

theorem find? (k : Despawned s id h t) (j : String) :
    t.find? j = if j == id then none else s.find? j := by
  rw [Stage.find?, k.index, Table.get?_erase]
  rfl

theorem mem_ids (k : Despawned s id h t) (j : String) : j ∈ t.ids ↔ j ≠ id ∧ j ∈ s.ids := by
  rw [k.ids, List.mem_filter, bne_iff_ne, and_comm]

/-- Despawning keeps the order. -/
theorem orderly (k : Despawned s id h t) (hs : s.Orderly) : t.Orderly where
  keys := by
    rw [keys_eq, k.cast]
    exact (List.filter_sublist.map Prod.fst).nodup (s.keys_eq ▸ hs.keys)
  below x hx := by
    rw [keys_eq, k.cast] at hx
    rw [k.next]
    exact hs.below x (s.keys_eq ▸ (List.filter_sublist.map Prod.fst).subset hx)
  ids := by
    rw [k.ids]
    exact hs.ids.filter _
  listed j := by
    rw [k.mem_ids, k.index, Table.contains_erase, Bool.and_eq_true, Bool.not_eq_true',
      beq_eq_false_iff_ne, hs.listed]
  bears j x hf := by
    have role := k.role x
    rw [k.find?] at hf
    by_cases gone : (j == id) = true
    · rw [if_pos gone] at hf
      cases hf
    · rw [if_neg gone] at hf
      obtain ⟨b, hb, rfl⟩ := hs.bears j x hf
      obtain ⟨c, hc, bears⟩ := hs.bears id h k.found
      -- two ids never share a handle: it names the one id that its actor bears
      have other : ¬(x == h) = true := by
        intro same
        rw [← eq_of_beq same, hb] at hc
        rw [Option.some.inj hc, bears, beq_self_eq_true] at gone
        exact gone rfl
      rw [if_neg other, hb] at role
      obtain ⟨a, ha, role⟩ := Option.map_eq_some_iff.mp role
      exact ⟨a, ha, congrArg Role.id role⟩
  named x a ha := by
    have role := k.role x
    rw [ha] at role
    by_cases gone : (x == h) = true
    · rw [if_pos gone] at role
      cases role
    · rw [if_neg gone] at role
      obtain ⟨b, hb, role⟩ := Option.map_eq_some_iff.mp role.symm
      have same : b.id = a.id := congrArg Role.id role
      have found := hs.named x b hb
      rw [same] at found
      have other : ¬(a.id == id) = true := by
        intro named
        rw [eq_of_beq named, k.found] at found
        exact gone (beq_iff_eq.mpr (Option.some.inj found).symm)
      rw [k.find?, if_neg other]
      exact found
  dressed := k.dressed hs.dressed

end Despawned

/-! ## Clearing -/

theorem mem_foldl_dismiss {l : List Handle} {s : Stage α} {e : Handle × Actor α}
    (he : e ∈ (l.foldl dismiss s).actors.entries) : e ∈ s.actors.entries ∧ e.1 ∉ l := by
  -- each handle is taken away in turn, and nobody ever comes back
  induction l generalizing s with
  | nil => exact ⟨he, List.not_mem_nil⟩
  | cons h l ih =>
    obtain ⟨left, others⟩ := ih he
    obtain ⟨old, other⟩ := List.mem_filter.mp left
    refine ⟨old, fun mem => ?_⟩
    rcases List.mem_cons.mp mem with same | mem
    · rw [same, beq_self_eq_true] at other
      cases other
    · exact others mem

/-- Nobody is left on a stage that has been cleared. -/
theorem Orderly.actors_clear {s : Stage α} (hs : s.Orderly) : s.clear.actors = .empty := by
  have nobody : (s.index.values.foldl dismiss s).actors.entries = [] := by
    -- whoever were left would be named by the index, and all that it names are dismissed
    refine List.eq_nil_iff_forall_not_mem.mpr fun e he => ?_
    obtain ⟨there, unnamed⟩ := mem_foldl_dismiss he
    obtain ⟨b, hb⟩ := Option.isSome_iff_exists.mp
      (Table.mem_keys.mp (List.mem_map_of_mem there))
    have found := hs.named e.1 b hb
    exact unnamed (List.mem_map_of_mem (Table.mem_of_get? found))
  exact congrArg Table.mk nobody

/-- Clearing keeps the order. -/
theorem Orderly.clear {s : Stage α} (hs : s.Orderly) : s.clear.Orderly :=
  .empty rfl rfl hs.actors_clear

end Stage

end BlockStage
