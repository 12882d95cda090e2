/-
  Prefilters: whoever is passed over when an event is delivered has no behavior for it.

  1. **Specification (`Session.Accurate`)** — in a catalog no identity is listed twice, and its mask
     is the union of the masks of its behaviors (`Catalog.Accurate`), so a kind of event is noted
     exactly if a behavior waits for it.  This holds of the catalogs of all entities on stage and of
     those in templates.  So those who listen have the same behaviors for an event, in the same
     order, as all who take part.

  2. **The crux (`Session.found_filter_notes`)** — going through any list of entities finds the same
     as going through those of them whose masks note the kind: the others have no behavior that
     could pass a test for it.

  3. **During a delivery (`Session.Prefiltered.lasting`)** — who listens is settled when the delivery
     begins, and the behaviors of an entity are looked up when its turn comes.  Scripts that run
     meanwhile give nobody a behavior but looping ones, so whoever was passed over has still none.
-/
import BlockStage.Proofs.Chronicle.Catalogue

namespace BlockStage

open Session (Trace)

/-- A test that only triggers of one kind pass. -/
def EventKind.Admits (kind : EventKind) (test : Trigger → Bool) : Prop :=
  ∀ t, test t = true → t.kind = kind

/-! ## Catalogs -/

/-- No identity is listed twice, and the mask is the union of those of the behaviors. -/
structure Catalog.Accurate (c : Catalog) : Prop where
  once : (c.behaviors.map Behavior.id).Nodup
  mask : c.mask = c.behaviors.foldl (fun m b => m.union (.only b.trigger.kind)) .empty

namespace Catalog

variable {c : Catalog}

/-- A kind is noted exactly if a behavior waits for it. -/
theorem Accurate.has_iff (hc : c.Accurate) (kind : EventKind) :
    c.mask.has kind = true ↔ ∃ b ∈ c.behaviors, b.trigger.kind = kind := by
  rw [hc.mask, EventMask.has_foldl_union]
  refine or_iff_right fun none => ?_
  cases kind <;> cases none

theorem Accurate.inOrder (hc : c.Accurate) : c.InOrder :=
  ⟨hc.once, fun b hb => (hc.has_iff _).mpr ⟨b, hb, rfl⟩⟩

theorem Accurate.register (hc : c.Accurate) (b : Behavior) : (c.register b).2.Accurate where
  once := (hc.inOrder.register b).once
  mask := by
    rw [Catalog.register]
    split
    · exact hc.mask
    · rw [List.foldl_append, ← hc.mask]
      rfl

theorem hereditary_accurate (adds : Behavior → Prop) : Hereditary adds Accurate :=
  ⟨⟨List.nodup_nil, rfl⟩, fun b _ hc => hc.register b⟩

/-- A catalog whose mask does not note a kind has no behavior for it. -/
theorem Accurate.filter_eq_nil (hc : c.Accurate) {kind : EventKind} {test : Trigger → Bool}
    (admits : kind.Admits test) (unnoted : c.mask.has kind = false) : c.filter test = [] := by
  refine List.filter_eq_nil_iff.mpr fun b hb passes => ?_
  have noted := (hc.has_iff kind).mpr ⟨b, hb, admits _ passes⟩
  rw [unnoted] at noted
  cases noted

end Catalog

/-! ## Sessions -/

namespace Session

variable {s t : Session} {kind : EventKind} {test : Trigger → Bool}

/-- Does the mask of the entity's catalog note the kind? -/
def notes (s : Session) (kind : EventKind) (id : String) : Bool :=
  match s.catalogs.get? id with
  | some c => c.mask.has kind
  | none => false

/-- Those who take part, in the order of registration. -/
def cast (s : Session) : List String := s.stage.ids.filter s.isLive

/-- The behaviors that pass a test, of one entity after the other. -/
def found (s : Session) (test : Trigger → Bool) (ids : List String) : List (String × Behavior) :=
  ids.flatMap fun id => (s.behaviors id test).map fun b => (id, b)

/-- Those who listen are those of the cast whose masks note the kind. -/
theorem listeners_eq (s : Session) (kind : EventKind) :
    s.listeners kind = s.cast.filter (s.notes kind) := by
  rw [cast, List.filter_filter]
  rfl

/-- All catalogs are accurate, also those that clones will get. -/
abbrev AllAccurate (s : Session) : Prop := s.AllCatalogs Catalog.Accurate

/-- Whoever's mask does not note the kind has no behavior for it. -/
theorem AllAccurate.behaviors_eq_nil (hs : s.AllAccurate) (admits : kind.Admits test) {id : String}
    (unnoted : s.notes kind id = false) : s.behaviors id test = [] := by
  rw [notes] at unnoted
  rw [behaviors]
  cases known : s.catalogs.get? id with
  | none => rfl
  | some c =>
    rw [known] at unnoted
    exact (hs.catalogs id c known).filter_eq_nil admits unnoted

/-- **Masks pass over nobody who has a behavior**, whoever is gone through. -/
theorem AllAccurate.found_filter_notes (hs : s.AllAccurate) (admits : kind.Admits test)
    (ids : List String) : s.found test (ids.filter (s.notes kind)) = s.found test ids := by
  induction ids with
  | nil => rfl
  | cons id rest ih =>
    cases noted : s.notes kind id with
    | true =>
      rw [List.filter_cons_of_pos noted]
      exact congrArg (_ ++ ·) ih
    | false =>
      rw [List.filter_cons_of_neg (Bool.eq_false_iff.mp noted), ih]
      have none := hs.behaviors_eq_nil admits noted
      rw [found, found, List.flatMap_cons, none, List.map_nil, List.nil_append]

theorem AllAccurate.found_listeners (hs : s.AllAccurate) (admits : kind.Admits test) :
    s.found test (s.listeners kind) = s.found test s.cast := by
  rw [listeners_eq]
  exact hs.found_filter_notes admits s.cast

/-! ### During a delivery -/

/-- A trace whose moments are of some kind is a trace of that kind. -/
theorem Trace.restrict {A B : Occasion → Prop} {l : List Moment} (h : Trace A s l t)
    (hB : ∀ m ∈ l, B m.occasion) : Trace B s l t := by
  induction h with
  | start => exact .start
  | change _ k ih => exact (ih hB).change k
  | @moment _ u _ o _ _ k ih =>
    obtain ⟨before, last⟩ := List.forall_mem_append.mp hB
    exact (ih before).moment (last ⟨o, u⟩ List.mem_cons_self) k

/-- **Whoever was passed over when a delivery began finds nothing later on**, as long as the same
    entity bears the id. -/
theorem AllAccurate.lasting (hs : s.AllAccurate) (registry : s.Registry) {l : List Moment}
    (trace : Trace Occasion.Delivering s l t) (admits : kind.Admits test)
    (other : kind ≠ .forever) {id : String} (live : s.isLive id = true)
    (passed : s.listens kind id = false) (same : t.handle? id = s.handle? id) :
    t.behaviors id test = [] := by
  have unnoted : s.notes kind id = false := by
    rw [listens, live, Bool.and_true] at passed
    exact passed
  have loops : test .forever = false := Bool.eq_false_iff.mpr fun passes =>
    other (admits _ passes).symm
  cases there : s.handle? id with
  | none =>
    rw [isLive, there] at live
    cases live
  | some h =>
    have old := registry.stage.below h (registry.stage.mem_keys_of_find? there)
    obtain ⟨-, kept⟩ := (trace.retains registry).kept id h (same.trans there) old
    exact (kept test loops).trans (hs.behaviors_eq_nil admits unnoted)

/-! ## The theorem -/

/-- What can be said of the catalogs of a session, and of what is found by way of their masks. -/
structure Accurate (s : Session) : Prop where
  /-- Everyone on stage has a catalog. -/
  known : ∀ id, (s.handle? id).isSome = true → ∃ c, s.catalogs.get? id = some c ∧ c.Accurate
  /-- All catalogs are accurate. -/
  catalogs : ∀ id c, s.catalogs.get? id = some c → c.Accurate
  /-- So are those in templates. -/
  templates : ∀ id t, s.templates.get? id = some t → t.catalog.Accurate
  /-- Whoever takes part and does not listen has no behavior for the event. -/
  passed : ∀ kind test, EventKind.Admits kind test → ∀ id, s.isLive id = true →
    s.listens kind id = false → s.behaviors id test = []
  /-- Those whose masks note start scripts have all start scripts. -/
  starts : s.found (fun t => t == .start) (s.stage.ids.filter (s.notes .start)) = s.startScripts
  /-- Those who listen for keys have all behaviors of the cast for a key. -/
  keys : ∀ key : Key,
    let test : Trigger → Bool := fun t => match t with
      | .key wanted => wanted.accepts key
      | _ => false
    s.found test (s.listeners .key) = s.found test s.cast
  /-- Those who listen for touches have all behaviors of the cast for touches. -/
  touches : s.found Play.touchesEntity (s.listeners .touching) = s.found Play.touchesEntity s.cast ∧
    s.found Play.touchesWorld (s.listeners .touching) = s.found Play.touchesWorld s.cast
  /-- Those who listen for messages have all behaviors of the cast for a message. -/
  messages : ∀ message, s.found (fun t => t == .message message) (s.listeners .message) =
    s.found (fun t => t == .message message) s.cast
  /-- Those who listen for the next frame have all looping behaviors of the cast. -/
  loops : s.found (fun t => t == .forever) (s.listeners .forever) =
    s.found (fun t => t == .forever) s.cast

/-- What is equal to a trigger is of its kind. -/
theorem admits_beq (t : Trigger) : t.kind.Admits fun u => u == t :=
  fun _ h => congrArg Trigger.kind (eq_of_beq h)

theorem admits_touchesEntity : EventKind.Admits .touching Play.touchesEntity := by
  intro t h
  cases t with
  | touching => rfl
  | _ => cases h

theorem admits_touchesWorld : EventKind.Admits .touching Play.touchesWorld := by
  intro t h
  cases t with
  | touching => rfl
  | _ => cases h

theorem admits_key (key : Key) : EventKind.Admits .key fun t => match t with
    | .key wanted => wanted.accepts key
    | _ => false := by
  intro t h
  cases t with
  | key => rfl
  | _ => cases h

theorem AllAccurate.accurate (hs : s.AllAccurate) (registry : s.Registry) : s.Accurate where
  known id there := by
    have listed : s.catalogs.contains id = true :=
      (registry.catalogs id).mpr (registry.stage.mem_ids.mpr (Option.isSome_iff_exists.mp there))
    obtain ⟨c, known⟩ := Option.isSome_iff_exists.mp listed
    exact ⟨c, known, hs.catalogs id c known⟩
  catalogs := hs.catalogs
  templates := hs.templates
  passed kind test admits id live passed := by
    rw [listens, live, Bool.and_true] at passed
    exact hs.behaviors_eq_nil admits passed
  starts := hs.found_filter_notes (admits_beq .start) s.stage.ids
  keys key := hs.found_listeners (admits_key key)
  touches := ⟨hs.found_listeners admits_touchesEntity, hs.found_listeners admits_touchesWorld⟩
  messages message := hs.found_listeners (admits_beq (.message message))
  loops := hs.found_listeners (admits_beq .forever)

/-- What can be said of the catalogs at every moment of calls. -/
structure Prefiltered (s : Session) (calls : List Call) : Prop where
  /-- Before the calls all is accurate. -/
  before : s.Accurate
  /-- So it is at every moment of them. -/
  during : ∀ m ∈ s.chronicle calls, m.session.Accurate
  /-- From a moment on, and as long as nothing is seen but deliveries, whoever takes part then and
      does not listen finds nothing at a later turn. -/
  lasting : ∀ before m between n after,
    s.chronicle calls = before ++ m :: (between ++ n :: after) →
    m.occasion.Delivering ∨ (∃ c, m.occasion = .call (.script c)) →
    (∀ k ∈ between, k.occasion.Delivering) → ∀ kind test, EventKind.Admits kind test →
    kind ≠ .forever → ∀ id, m.session.isLive id = true → m.session.listens kind id = false →
    n.session.handle? id = m.session.handle? id → n.session.behaviors id test = []

/-- What begins with a delivery, or with a call that runs scripts, and goes on with deliveries is a
    trace of deliveries. -/
theorem Effect.delivering {o : Occasion} {u : Session} {l : List Moment} (h : Effect o s u)
    (ho : o.Delivering ∨ ∃ c, o = .call (.script c)) (rest : Trace Occasion.Delivering u l t) :
    ∃ m, Trace Occasion.Delivering s m t := by
  rcases ho with delivering | ⟨c, rfl⟩
  · exact ⟨_, (Trace.start.moment delivering h).trans rest⟩
  · cases h with
    | call => exact ⟨l, rest⟩
    | plain plain => exact plain.elim

/-- **Masks are accurate at every moment**, and passing over whoever does not listen never changes
    what is found. -/
theorem prefiltered_of_visited (hs : Visited s) (calls : List Call) : s.Prefiltered calls := by
  have trace := s.trace_chronicle calls
  have first : s.AllAccurate := .of_visited (Catalog.hereditary_accurate _) hs
  have order := registry_of_visited hs
  have upTo : ∀ {before : List Moment} {u : Session}, Trace (fun _ => True) s before u →
      u.AllAccurate ∧ u.Registry := fun h =>
    ⟨first.trace (Catalog.hereditary_accurate _) h, stable_registry.trace h order⟩
  refine ⟨first.accurate order, fun m hm => ?_, ?_⟩
  · obtain ⟨before, after, hl⟩ := List.append_of_mem hm
    obtain ⟨accurate, registry⟩ := upTo (hl ▸ trace).split.1
    exact accurate.accurate registry
  · intro before m between n after hl begins delivers kind test admits other id live passed same
    obtain ⟨front, -, u, effect, rest⟩ := (hl ▸ trace).split
    obtain ⟨accurate, registry⟩ := upTo front
    obtain ⟨l, delivery⟩ := effect.delivering begins (rest.split.1.restrict delivers)
    exact accurate.lasting registry delivery admits other live passed same

/-- Someone waits for a message and adds a loop at the start, and is cloned; someone else has no
    behaviors. -/
def bandstand : Session :=
  (fresh .usual (Generator.ofSeed 0) 5).after
    [.register (Spawn.new "a"), .register (Spawn.new "b"),
      .addBehaviors "a" ⟨[⟨0, .start, [.forever 2 []]⟩, ⟨1, .message "go", []⟩], [], 3⟩,
      .saveTemplate "a", .script .start, .script (.createClone "a")]

/-- The clone has the loop that was added after the template had been saved, and it listens for the
    message like its original.  The other is passed over, and has nothing. -/
theorem prefiltered_bandstand :
    bandstand.Prefiltered [.broadcast "go", .script (.updateBy 0)] ∧
      bandstand.cast = ["a", "b", "a__clone_1"] ∧
      bandstand.listeners .message = ["a", "a__clone_1"] ∧
      ((bandstand.found (fun t => t == .forever) bandstand.cast).map fun e => (e.1, e.2.id)) =
        [("a", 2), ("a__clone_1", 2)] :=
  ⟨prefiltered_of_visited ((Visited.fresh _ _ _).after _) _, by decide +kernel, by decide +kernel,
    by decide +kernel⟩

end Session

end BlockStage
