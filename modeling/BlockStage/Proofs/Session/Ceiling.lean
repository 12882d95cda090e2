/-
  The clone ceiling: how many clones live, and what they are called.

  1. **Specification** — as long as a host brings no clones of its own on stage (`Call.Bare`), there
     are never more live clones than the limit allows; and between two clearings of the stage
     (`Call.KeepsScene`) no id is given to two clones, however many of them have been deleted.

  2. **The ceiling (`stable_capped`)** — only a request brings a clone on stage, and only if there is
     room, in the same moment; all else leaves the number of clones as it is or lowers it.

  3. **Numbers (`Course.numbered`)** — each clone that is made uses up the next number, no number is
     used twice, and a clone's id tells its number (`cloneName_inj`).

  4. Both hold at every moment of a course, so also while clones are being made from within the
     start scripts of other clones (`clone_ceiling`).
-/
import BlockStage.Proofs.Session.Course
import BlockStage.Proofs.Stage.Clones

namespace BlockStage

namespace Call

/-- Does the host bring nobody on stage as a clone? -/
def Bare : Call → Prop
  | .register d => d.prototype = none
  | _ => True

/-- Is the stage not cleared? -/
def KeepsScene : Call → Prop
  | .loadScene _ => False
  | .cleanup => False
  | _ => True

end Call

namespace Session

/-- Nobody comes on stage as a clone but by a request; the stage may be cleared or not. -/
def Licence.bare (clears : Prop) : Licence := ⟨fun d => d.prototype = none, clears⟩

theorem within_of_bare {c : Call} (hc : c.Bare) : c.Within (.bare True) := by
  cases c with
  | loadScene scene => exact ⟨trivial, fun _ _ _ => rfl⟩
  | loadEntity e => exact fun _ => rfl
  | register d => exact hc
  | _ => trivial

theorem within_of_keepsScene {c : Call} (hc : c.Bare) (hk : c.KeepsScene) :
    c.Within (.bare False) := by
  cases c with
  | loadScene scene => exact False.elim hk
  | loadEntity e => exact fun _ => rfl
  | register d => exact hc
  | cleanup => exact hk
  | _ => trivial

variable {s t : Session} {ids : List String}

/-! ## The ceiling -/

/-- The registry is in order, and there are no more clones on stage than the limit allows. -/
structure Capped (s : Session) : Prop where
  registry : s.Registry
  room : s.stage.clones ≤ s.config.cloneLimit

namespace Capped

/-- There are no more clones than before, and the limit is the same. -/
theorem of_le (hs : s.Capped) (registry : t.Registry) (fewer : t.stage.clones ≤ s.stage.clones)
    (limit : t.config = s.config) : t.Capped :=
  ⟨registry, limit ▸ Nat.le_trans fewer hs.room⟩

theorem deed (h : Deed s t) (hs : s.Capped) : t.Capped := by
  refine hs.of_le (hs.registry.deed h) ?_ h.fixed.1
  rcases h.cast hs.registry.stage with same | ⟨id, h, gone⟩
  · exact Nat.le_of_eq same.clones
  · exact gone.clones_le hs.registry.stage

/-- **A clone is made only where there is room**, and it takes up the room of one. -/
theorem clone {r : Except SessionError String} (hs : s.Capped) (h : CloneStep s r t) : t.Capped := by
  have registry := hs.registry.clone h
  cases h with
  | refused serial h later =>
    refine hs.of_le registry ?_ ?_
    · rw [h.rest]
      exact Nat.le_refl _
    · rw [h.rest]
      rfl
  | @made _ id prototype template h stage store room known spawned locals rest named =>
    have orderly := hs.registry.stage
    have more : stage.clones = s.stage.clones + 1 :=
      (Stage.spawned_of_spawn orderly.fresh spawned).clones orderly
        (by rw [cloneSpawn_prototype]; rfl)
    refine ⟨registry, ?_⟩
    rw [rest.rest]
    show stage.clones ≤ s.config.cloneLimit
    rw [more]
    exact room

/-- Whoever a host brings on stage is no clone. -/
theorem enroll {d : Spawn Float32} (hs : s.Capped) (bare : d.prototype = none)
    (ht : s.enroll d = .ok t) : t.Capped := by
  have registry := stable_registry.enroll trivial ht hs.registry
  obtain ⟨x, stage, spawned, rfl⟩ := enroll_ok ht
  have orderly := hs.registry.stage
  have same : stage.clones = s.stage.clones :=
    (Stage.spawned_of_spawn orderly.fresh spawned).clones_of_bare orderly bare
  exact hs.of_le registry (Nat.le_of_eq same) rfl

end Capped

/-- **The ceiling is stable** as long as hosts bring no clones on stage. -/
theorem stable_capped (clears : Prop) : Stable (.bare clears) Capped where
  deed := Capped.deed
  upkeep h hs := by
    refine hs.of_le (stable_registry.upkeep h hs.registry) (Nat.le_of_eq h.stage.clones) ?_
    rw [h.rest]
    rfl
  request s source hs := hs.clone (s.requestClone_step source)
  queue s starts draining hs := ⟨stable_registry.queue s starts draining hs.registry, hs.room⟩
  template s id t hs := ⟨stable_registry.template s id t hs.registry, hs.room⟩
  enroll bare ht hs := hs.enroll bare ht
  clear _ s hs := ⟨stable_registry.clear trivial s hs.registry, Nat.zero_le _⟩
  define s ds hs := ⟨stable_registry.define s ds hs.registry, hs.room⟩
  forget _ s hs := ⟨stable_registry.forget trivial s hs.registry, hs.room⟩
  events s hs := ⟨stable_registry.events s hs.registry, hs.room⟩

/-- Between calls the ceiling holds. -/
theorem capped_of_visitedBy (h : VisitedBy Call.Bare s) : s.Capped :=
  (stable_capped True).visitedBy (fun _ => within_of_bare)
    (fun config g budget => ⟨registry_of_visited (.fresh config g budget), Nat.zero_le _⟩) h

/-! ## Numbers -/

/-- Only requests change the number of the last clone, as long as the stage is not cleared. -/
theorem Step.cloneSerial {l : Licence} (hl : ¬l.clears) (h : Step l s t) :
    t.cloneSerial = s.cloneSerial := by
  cases h with
  | deed h => exact h.fixed.2.1
  | upkeep h => rw [h.rest]; rfl
  | enroll hd h =>
    obtain ⟨x, stage, -, rfl⟩ := enroll_ok h
    rfl
  | clear yes => exact absurd yes hl
  | _ => rfl

/-- The clones made on a course have been given different ids, which tell numbers that were new. -/
structure Numbered (s t : Session) (ids : List String) : Prop where
  later : s.cloneSerial ≤ t.cloneSerial
  distinct : ids.Nodup
  serial : ∀ id ∈ ids, ∃ prototype n, id = cloneName prototype n ∧ s.cloneSerial < n ∧
    n ≤ t.cloneSerial

namespace Numbered

theorem refl (s : Session) : Numbered s s [] :=
  ⟨Nat.le_refl _, List.nodup_nil, fun _ h => (by cases h)⟩

/-- Nothing has been made, but a number may have been used up. -/
theorem idle {u : Session} (h : Numbered s t ids) (later : t.cloneSerial ≤ u.cloneSerial) :
    Numbered s u ids where
  later := Nat.le_trans h.later later
  distinct := h.distinct
  serial id hid := by
    obtain ⟨prototype, n, name, new, old⟩ := h.serial id hid
    exact ⟨prototype, n, name, new, Nat.le_trans old later⟩

/-- **The next number is new**, so the id that tells it is. -/
theorem clone {u : Session} {r : Except SessionError String} (h : Numbered s t ids)
    (k : CloneStep t r u) : Numbered s u (ids ++ madeBy r) := by
  cases k with
  | refused serial k later =>
    rw [madeBy, List.append_nil]
    refine h.idle ?_
    rw [k.rest]
    exact later
  | @made _ id prototype template x stage store room known spawned locals rest named =>
    have next : u.cloneSerial = t.cloneSerial + 1 := by
      rw [rest.rest]
      rfl
    have new : id ∉ ids := by
      intro old
      obtain ⟨other, n, name, -, used⟩ := h.serial id old
      have same := (cloneName_inj.mp (named.symm.trans name)).2
      omega
    have wider := h.idle (u := u) (by omega)
    refine ⟨wider.later, ?_, fun j hj => ?_⟩
    · exact List.nodup_append_comm.mp (List.nodup_cons.mpr ⟨new, h.distinct⟩)
    · rcases List.mem_append.mp hj with old | last
      · exact wider.serial j old
      · have later := h.later
        exact ⟨prototype, t.cloneSerial + 1, (List.mem_singleton.mp last).trans named, by omega,
          Nat.le_of_eq next.symm⟩

end Numbered

theorem Course.numbered {l : Licence} (hl : ¬l.clears) (h : Course l s ids t) :
    Numbered s t ids := by
  induction h with
  | start => exact .refl s
  | step _ step ih => exact ih.idle (Nat.le_of_eq (step.cloneSerial hl).symm)
  | @request ids t _ source ih => exact ih.clone (t.requestClone_step source)

/-! ## The specification -/

/-- What can be said of the clones of a session and of all that may happen in it. -/
structure Ceiling (s : Session) : Prop where
  room : s.liveClones ≤ s.config.cloneLimit
  /-- Every call takes a course. -/
  call : ∀ c : Call, c.Bare → ∃ ids, Course (.bare True) s ids (c.run.last s)
  /-- The ceiling holds at every moment of a course. -/
  always : ∀ ids t, Course (.bare True) s ids t → t.liveClones ≤ t.config.cloneLimit
  /-- Calls that do not clear the stage take a course on which it is not cleared. -/
  scene : ∀ calls : List Call, (∀ c ∈ calls, c.Bare ∧ c.KeepsScene) →
    ∃ ids, Course (.bare False) s ids (s.after calls)
  /-- The clones made on such a course have different ids, and events tell of no others. -/
  distinct : ∀ ids t, Course (.bare False) s ids t →
    ids.Nodup ∧ t.clonings <:+ s.clonings ++ ids

/-- **The clone ceiling holds** whatever a host calls, save bringing clones of its own on stage, and
    whatever scripts do, also while clones are being made from within scripts of other clones. -/
theorem clone_ceiling (h : VisitedBy Call.Bare s) : s.Ceiling where
  room := (capped_of_visitedBy h).room
  call c hc := s.course_of_call c (within_of_bare hc)
  always _ _ course := ((stable_capped True).course course (capped_of_visitedBy h)).room
  scene calls hc := s.course_after calls fun c hd =>
    within_of_keepsScene (hc c hd).1 (hc c hd).2
  distinct _ _ course := ⟨(course.numbered id).distinct, course.clonings⟩

/-- Each clone asks for another clone as soon as it starts, until there is no room any more. -/
def brood : Session :=
  (fresh { Config.usual with cloneLimit := 2 } (Generator.ofSeed 0) 5).after
    [.register (Spawn.new "a"),
      .addBehaviors "a" ⟨[⟨0, .cloneStart, [.action (.createClone (.const (.text "")))]⟩], [], 1⟩,
      .saveTemplate "a", .script .start, .script (.createClone "a")]

theorem clone_ceiling_brood :
    VisitedBy Call.Bare brood ∧ brood.clonings = ["a__clone_1", "a__clone_2"] ∧
      brood.liveClones = brood.config.cloneLimit ∧ brood.Ceiling := by
  have bare : VisitedBy Call.Bare brood := by
    refine (VisitedBy.fresh _ _ _).after _ ?_
    simp only [List.forall_mem_cons]
    exact ⟨rfl, trivial, trivial, trivial, trivial, fun _ h => (by cases h)⟩
  exact ⟨bare, by decide +kernel, by decide +kernel, clone_ceiling bare⟩

end Session

end BlockStage
