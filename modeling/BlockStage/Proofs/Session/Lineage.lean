/-
  Lineage: which prototype an id leads back to.

  1. **Two ways back** — a live clone knows its prototype; the id of one that is gone is read up to
     the separator.  The first is right because a clone's id is made from its prototype's
     (`Lineal`).  The second is right exactly if the separator does not begin within the
     prototype's own id (`textBefore?_append_iff`), since reading stops where it first occurs.

  2. **Templates** — a template that has been saved stays, whoever leaves, until the stage is
     cleared (`stable_template`).

  3. So, for an id with a template, at every later moment of the scene it is known exactly when it
     and the ids of its clones lead back to it (`descent_of_course`).  An id that contains the
     separator does not, once its entity has gone (`prototypeOf_orphaned`).
-/
import BlockStage.Proofs.Session.Ceiling

namespace BlockStage

/-! ## The text before a word -/

section
variable {w l before : List Char}

theorem textBefore?_cons (w : List Char) (c : Char) (rest : List Char) :
    textBefore? w (c :: rest)
      = if w <+: c :: rest then some [] else (textBefore? w rest).map fun b => c :: b := by
  rw [textBefore?]
  exact if_congr List.isPrefixOf_iff_prefix rfl rfl

/-- A word is found exactly if it occurs. -/
theorem textBefore?_eq_none_iff : textBefore? w l = none ↔ ¬w <:+: l := by
  induction l with
  | nil =>
    rw [textBefore?, List.infix_nil]
    by_cases h : w = []
    · rw [if_pos h]
      exact iff_of_false (fun h => (by cases h)) fun no => no h
    · rw [if_neg h]
      exact iff_of_true rfl h
  | cons c rest ih =>
    rw [textBefore?_cons, List.infix_cons_iff, not_or]
    by_cases h : w <+: c :: rest
    · rw [if_pos h]
      exact iff_of_false (fun h => (by cases h)) fun no => no.1 h
    · rw [if_neg h, Option.map_eq_none_iff, ih]
      exact ⟨fun no => ⟨h, no⟩, fun no => no.2⟩

/-- Nothing is before a word with which the text begins. -/
theorem textBefore?_eq_nil_iff : textBefore? w l = some [] ↔ w <+: l := by
  cases l with
  | nil =>
    rw [textBefore?, List.prefix_nil]
    by_cases h : w = []
    · rw [if_pos h]
      exact iff_of_true rfl h
    · rw [if_neg h]
      exact iff_of_false (fun h => (by cases h)) h
  | cons c rest =>
    rw [textBefore?_cons]
    by_cases h : w <+: c :: rest
    · rw [if_pos h]
      exact iff_of_true rfl h
    · rw [if_neg h]
      refine iff_of_false (fun some => ?_) h
      obtain ⟨b, -, nil⟩ := Option.map_eq_some_iff.mp some
      cases nil

/-- What is found before a word is followed by it. -/
theorem append_of_textBefore? (h : textBefore? w l = some before) :
    ∃ rest, l = before ++ (w ++ rest) := by
  induction l generalizing before with
  | nil =>
    rw [textBefore?] at h
    split at h
    · rename_i nil
      obtain rfl := Option.some.inj h
      exact ⟨[], by rw [nil]; rfl⟩
    · cases h
  | cons c rest ih =>
    rw [textBefore?_cons] at h
    split at h
    · rename_i start
      obtain ⟨more, hmore⟩ := start
      obtain rfl := Option.some.inj h
      exact ⟨more, hmore.symm⟩
    · obtain ⟨b, hb, rfl⟩ := Option.map_eq_some_iff.mp h
      obtain ⟨more, hmore⟩ := ih hb
      exact ⟨more, by rw [hmore]; rfl⟩

/-- **Where reading stops**: the text in front of a word is found exactly if the word does not begin
    within it. -/
theorem textBefore?_append_iff (hw : w ≠ []) (front rest : List Char) :
    textBefore? w (front ++ (w ++ rest)) = some front ↔ ¬w <:+: front ++ w.dropLast := by
  have shorter : w.dropLast.length + 1 = w.length := by
    rw [List.length_dropLast]
    exact Nat.succ_pred_eq_of_pos (List.length_pos_iff.mpr hw)
  induction front with
  | nil =>
    rw [List.nil_append, textBefore?_eq_nil_iff]
    refine iff_of_true (List.prefix_append w rest) fun within => ?_
    have := within.length_le
    rw [List.nil_append] at this
    omega
  | cons c front ih =>
    -- the word begins here in the whole text exactly if it does so in the text without its last
    -- character, which is long enough
    have here : w <+: c :: (front ++ (w ++ rest)) ↔ w <+: c :: (front ++ w.dropLast) := by
      have cut : c :: (front ++ w.dropLast) <+: c :: (front ++ (w ++ rest)) := by
        refine List.cons_prefix_cons.mpr ⟨rfl, (List.prefix_append_right_inj front).mpr ?_⟩
        exact (List.dropLast_prefix w).trans (List.prefix_append w rest)
      constructor
      · intro start
        refine List.prefix_of_prefix_length_le start cut ?_
        rw [List.length_cons, List.length_append]
        omega
      · exact fun start => start.trans cut
    rw [List.cons_append, textBefore?_cons, List.cons_append, List.infix_cons_iff, not_or]
    by_cases start : w <+: c :: (front ++ (w ++ rest))
    · rw [if_pos start]
      exact iff_of_false (fun h => (by cases h)) fun no => no.1 (here.mp start)
    · rw [if_neg start, Option.map_eq_some_iff]
      constructor
      · rintro ⟨b, hb, same⟩
        rw [(List.cons.inj same).2] at hb
        exact ⟨fun h => start (here.mpr h), ih.mp hb⟩
      · exact fun no => ⟨front, ih.mpr no.2, rfl⟩

end

/-! ## Clones know where they come from -/

namespace Stage

variable {α : Type}

/-- Is every clone on stage named after its prototype? -/
def Lineal (s : Stage α) : Prop :=
  ∀ x r p, (s.actor? x).map Actor.role = some r → r.prototype = some p →
    ∃ n, r.id = Session.cloneName p n

namespace Lineal

variable {s t : Stage α}

theorem sameCast (hs : s.Lineal) (h : s.SameCast t) : t.Lineal :=
  fun x r p hr => hs x r p ((h.role x).symm.trans hr)

theorem despawned {id : String} {h : Handle} (hs : s.Lineal) (k : s.Despawned id h t) :
    t.Lineal := by
  intro x r p hr
  rw [k.role] at hr
  split at hr
  · cases hr
  · exact hs x r p hr

/-- Whoever comes on stage has to be named after their prototype, if they have one. -/
theorem spawned {d : Spawn α} {h : Handle} (hs : s.Lineal) (orderly : s.Orderly)
    (k : s.Spawned d h t) (after : ∀ p, d.prototype = some p → ∃ n, d.id = Session.cloneName p n) :
    t.Lineal := by
  intro x r p hr hp
  rw [k.role orderly] at hr
  split at hr
  · obtain rfl := Option.some.inj hr
    exact after p hp
  · exact hs x r p hr hp

theorem clear (orderly : s.Orderly) : s.clear.Lineal := by
  intro x r p hr
  obtain ⟨a, ha, -⟩ := Option.map_eq_some_iff.mp hr
  -- whoever were left would be found by their id
  cases orderly.clear.named x a ha

end Lineal

end Stage

namespace Session

variable {s t : Session} {ids : List String} {o : String}

/-- The registry is in order, and every clone is named after its prototype. -/
structure Lineal (s : Session) : Prop where
  registry : s.Registry
  named : s.stage.Lineal

namespace Lineal

theorem deed (h : Deed s t) (hs : s.Lineal) : t.Lineal := by
  refine ⟨hs.registry.deed h, ?_⟩
  rcases h.cast hs.registry.stage with same | ⟨id, h, gone⟩
  · exact hs.named.sameCast same
  · exact hs.named.despawned gone

theorem clone {r : Except SessionError String} (hs : s.Lineal) (h : CloneStep s r t) : t.Lineal := by
  refine ⟨hs.registry.clone h, ?_⟩
  cases h with
  | refused serial h later =>
    rw [h.rest]
    exact hs.named
  | @made _ id prototype template h stage store room known spawned locals rest named =>
    rw [rest.rest]
    have orderly := hs.registry.stage
    refine hs.named.spawned orderly (Stage.spawned_of_spawn orderly.fresh spawned) fun p hp => ?_
    rw [cloneSpawn_prototype] at hp
    rw [cloneSpawn_id, ← Option.some.inj hp]
    exact ⟨_, named⟩

theorem enroll {d : Spawn Float32} (hs : s.Lineal) (bare : d.prototype = none)
    (ht : s.enroll d = .ok t) : t.Lineal := by
  refine ⟨stable_registry.enroll trivial ht hs.registry, ?_⟩
  obtain ⟨x, stage, spawned, rfl⟩ := enroll_ok ht
  have orderly := hs.registry.stage
  refine hs.named.spawned orderly (Stage.spawned_of_spawn orderly.fresh spawned) fun p hp => ?_
  rw [bare] at hp
  cases hp

end Lineal

/-- **Clones stay named after their prototypes** as long as hosts bring no clones on stage. -/
theorem stable_lineal (clears : Prop) : Stable (.bare clears) Lineal where
  deed := Lineal.deed
  upkeep h hs := ⟨stable_registry.upkeep h hs.registry, hs.named.sameCast h.stage⟩
  request s source hs := hs.clone (s.requestClone_step source)
  queue s starts draining hs := ⟨stable_registry.queue s starts draining hs.registry, hs.named⟩
  template s id t hs := ⟨stable_registry.template s id t hs.registry, hs.named⟩
  enroll bare ht hs := hs.enroll bare ht
  clear _ s hs := ⟨stable_registry.clear trivial s hs.registry, .clear hs.registry.stage⟩
  define s ds hs := ⟨stable_registry.define s ds hs.registry, hs.named⟩
  forget _ s hs := ⟨stable_registry.forget trivial s hs.registry, hs.named⟩
  events s hs := ⟨stable_registry.events s hs.registry, hs.named⟩

/-! ## Templates stay -/

/-- **A template stays** as long as the stage is not cleared. -/
theorem stable_template (o : String) :
    Stable (.bare False) fun s => s.templates.contains o = true where
  deed h hs := h.fixed.2.2 ▸ hs
  upkeep h hs := h.templates o hs
  request s source hs := (s.requestClone_step source).fixed.2.2.2 ▸ hs
  queue _ _ _ hs := hs
  template s id t hs := by
    show (s.templates.insert id t).contains o = true
    rw [Table.contains_insert, hs, Bool.or_true]
  enroll _ ht hs := by
    obtain ⟨x, stage, -, rfl⟩ := enroll_ok ht
    exact hs
  clear no := no.elim
  define _ _ hs := hs
  forget no := no.elim
  events _ hs := hs

/-! ## Reading ids -/

/-- Does the separator begin within an id, so that the ids of its clones are read wrongly? -/
def Ambiguous (o : String) : Prop :=
  cloneSeparator.toList <:+: o.toList ++ cloneSeparator.toList.dropLast

theorem infix_cloneName (o : String) (n : Nat) :
    cloneSeparator.toList <:+: (cloneName o n).toList := by
  rw [cloneName, String.toList_append, String.toList_append]
  exact ⟨_, _, rfl⟩

theorem ambiguous_of_occurs (h : cloneSeparator.toList <:+: o.toList) : Ambiguous o :=
  h.trans (List.prefix_append _ _).isInfix

/-- Who is on stage is known by what they are, not by their name. -/
theorem prototypeOf_of_role {h : Handle} {r : Role Float32} (found : s.handle? o = some h)
    (role : (s.stage.actor? h).map Actor.role = some r) : s.prototypeOf o = r.prototype.getD o := by
  obtain ⟨a, ha, rfl⟩ := Option.map_eq_some_iff.mp role
  rw [prototypeOf, found, Option.bind_some, ha]
  rfl

/-- The id of someone who has gone leads back to itself if it does not contain the separator, or
    begins with it. -/
theorem prototypeOf_iff_of_gone (gone : s.handle? o = none) :
    s.prototypeOf o = o ↔ cloneSeparator.toList <+: o.toList ∨
      ¬cloneSeparator.toList <:+: o.toList := by
  rw [prototypeOf, gone, Option.bind_none]
  dsimp only
  cases read : textBefore? cloneSeparator.toList o.toList with
  | none => exact iff_of_true rfl (.inr (textBefore?_eq_none_iff.mp read))
  | some before =>
    cases before with
    | nil => exact iff_of_true rfl (.inl (textBefore?_eq_nil_iff.mp read))
    | cons c before =>
      obtain ⟨rest, whole⟩ := append_of_textBefore? read
      refine iff_of_false (fun same => ?_) ?_
      · -- what is before the separator is shorter than the id
        have chars := congrArg String.toList same
        rw [String.toList_ofList] at chars
        rw [← chars] at whole
        have lengths := congrArg List.length whole
        rw [List.length_append, List.length_append] at lengths
        have : cloneSeparator.toList.length = 8 := by decide
        omega
      · rintro (start | none)
        · rw [textBefore?_eq_nil_iff.mpr start] at read
          cases read
        · rw [textBefore?_eq_none_iff.mpr none] at read
          cases read

/-- The id of a clone that has gone leads back to the prototype if that is not ambiguous. -/
theorem prototypeOf_cloneName_iff_of_gone {n : Nat} (ho : o ≠ "")
    (gone : s.handle? (cloneName o n) = none) :
    s.prototypeOf (cloneName o n) = o ↔ ¬Ambiguous o := by
  have reads : textBefore? cloneSeparator.toList (cloneName o n).toList = some o.toList ↔
      ¬Ambiguous o := by
    rw [cloneName, String.toList_append, String.toList_append, List.append_assoc]
    exact textBefore?_append_iff (by decide) _ _
  rw [← reads, prototypeOf, gone, Option.bind_none]
  dsimp only
  have other : cloneName o n ≠ o := cloneName_ne o n
  have some : o.toList ≠ [] := fun h => ho (String.toList_eq_nil_iff.mp h)
  cases read : textBefore? cloneSeparator.toList (cloneName o n).toList with
  | none => exact iff_of_false other fun h => (by cases h)
  | some before =>
    cases before with
    | nil => exact iff_of_false other fun h => some (Option.some.inj h).symm
    | cons c before =>
      constructor
      · intro same
        rw [← same, String.toList_ofList]
      · intro same
        have same : String.ofList (c :: before) = o := by
          rw [Option.some.inj same, String.ofList_toList]
        exact same

/-! ## The specification -/

/-- What leads back to an id that has a template. -/
structure Descent (t : Session) (o : String) : Prop where
  template : t.templates.contains o = true
  original : t.prototypeOf o = o ↔
    ((t.handle? o).isSome = true ∧ t.isClone o = false) ∨
      (t.handle? o = none ∧ (cloneSeparator.toList <+: o.toList ∨
        ¬cloneSeparator.toList <:+: o.toList))
  clone : ∀ n, t.prototypeOf (cloneName o n) = o ↔
    t.isClone (cloneName o n) = true ∨ (t.handle? (cloneName o n) = none ∧ ¬Ambiguous o)
  /-- An id that is not ambiguous leads back to itself, on stage or not. -/
  unambiguous : ¬Ambiguous o → t.prototypeOf o = o
  /-- Requests that name what leads back find the template, and their clones lead back as well. -/
  request : ∀ source, t.prototypeOf source = o →
    (∀ p, (t.requestClone source).1 ≠ .error (.noTemplate source p)) ∧
      ∀ id, (t.requestClone source).1 = .ok id → ∃ n, id = cloneName o n

/-- Who is on stage has a role, and bears the id. -/
theorem Lineal.role {h : Handle} (hs : s.Lineal) (found : s.handle? o = some h) :
    ∃ r, (s.stage.actor? h).map Actor.role = some r ∧ r.id = o ∧
      s.isClone o = r.prototype.isSome := by
  obtain ⟨a, ha, bears⟩ := hs.registry.stage.bears o h found
  refine ⟨a.role, by rw [ha]; rfl, bears, ?_⟩
  rw [isClone, found]
  show s.stage.isClone h = _
  rw [Stage.isClone, ha]
  rfl

/-- On stage is an original, which leads to itself, or a clone, whose id tells its prototype. -/
theorem Lineal.kind {h : Handle} (hs : s.Lineal) (found : s.handle? o = some h) :
    (s.isClone o = false ∧ s.prototypeOf o = o) ∨
      ∃ p n, s.isClone o = true ∧ s.prototypeOf o = p ∧ o = cloneName p n := by
  obtain ⟨r, role, bears, clone⟩ := hs.role found
  rw [prototypeOf_of_role found role, clone]
  cases proto : r.prototype with
  | none => exact .inl ⟨rfl, rfl⟩
  | some p =>
    obtain ⟨n, name⟩ := hs.named h r p role proto
    exact .inr ⟨p, n, rfl, rfl, bears.symm.trans name⟩

/-- What leads to itself: originals on stage, and ids of the gone that name no prototype. -/
theorem Lineal.prototypeOf_self_iff (hs : s.Lineal) : s.prototypeOf o = o ↔
    ((s.handle? o).isSome = true ∧ s.isClone o = false) ∨
      (s.handle? o = none ∧ (cloneSeparator.toList <+: o.toList ∨
        ¬cloneSeparator.toList <:+: o.toList)) := by
  cases found : s.handle? o with
  | none =>
    rw [prototypeOf_iff_of_gone found]
    exact ⟨fun h => .inr ⟨rfl, h⟩, fun h => h.elim (fun no => (by cases no.1)) fun h => h.2⟩
  | some h =>
    rcases hs.kind found with ⟨original, itself⟩ | ⟨p, n, clone, leads, name⟩
    · exact iff_of_true itself (.inl ⟨rfl, original⟩)
    · -- a clone is never named like its prototype
      refine iff_of_false (fun same => ?_) ?_
      · have same : p = o := leads.symm.trans same
        exact cloneName_ne p n (name.symm.trans same.symm)
      · rintro (no | no)
        · cases clone.symm.trans no.2
        · cases no.1

/-- What leads to the prototype in its name: clones on stage, and the gone if the name is clear. -/
theorem Lineal.prototypeOf_cloneName_iff (hs : s.Lineal) (ho : o ≠ "") (n : Nat) :
    s.prototypeOf (cloneName o n) = o ↔
      s.isClone (cloneName o n) = true ∨ (s.handle? (cloneName o n) = none ∧ ¬Ambiguous o) := by
  cases found : s.handle? (cloneName o n) with
  | none =>
    have unknown : s.isClone (cloneName o n) = false := by rw [isClone, found]
    rw [prototypeOf_cloneName_iff_of_gone ho found, unknown]
    exact ⟨fun h => .inr ⟨rfl, h⟩, fun h => h.elim (fun no => (by cases no)) fun h => h.2⟩
  | some h =>
    rcases hs.kind found with ⟨original, itself⟩ | ⟨p, m, clone, leads, name⟩
    · refine iff_of_false (fun same => cloneName_ne o n (itself.symm.trans same)) ?_
      rintro (no | no)
      · cases original.symm.trans no
      · cases no.1
    · -- the id tells the prototype
      exact iff_of_true (leads.trans (cloneName_inj.mp name).1.symm) (.inl clone)

theorem Lineal.prototypeOf_of_clear (hs : s.Lineal) (clear : ¬Ambiguous o) :
    s.prototypeOf o = o := by
  have none : ¬cloneSeparator.toList <:+: o.toList := fun h => clear (ambiguous_of_occurs h)
  refine hs.prototypeOf_self_iff.mpr ?_
  cases found : s.handle? o with
  | none => exact .inr ⟨rfl, .inr none⟩
  | some h =>
    rcases hs.kind found with ⟨original, -⟩ | ⟨p, n, -, -, name⟩
    · exact .inl ⟨rfl, original⟩
    · exact absurd (name ▸ infix_cloneName p n) none

theorem Lineal.descent (hs : s.Lineal) (ho : o ≠ "") (saved : s.templates.contains o = true) :
    s.Descent o where
  template := saved
  original := hs.prototypeOf_self_iff
  clone := hs.prototypeOf_cloneName_iff ho
  unambiguous := hs.prototypeOf_of_clear
  request source leads := by
    refine ⟨fun p => requestClone_ne_noTemplate (by rw [leads]; exact saved) p, fun id made => ?_⟩
    exact ⟨_, leads ▸ requestClone_ok made⟩

/-- **What leads back to an id with a template**, at every later moment of the scene, whoever has
    left the stage, as long as hosts bring no clones of their own on stage. -/
theorem descent_of_course (h : VisitedBy Call.Bare s) (ho : o ≠ "")
    (saved : s.templates.contains o = true) (course : Course (.bare False) s ids t) :
    t.Descent o := by
  have lineal : s.Lineal := (stable_lineal True).visitedBy (fun _ => within_of_bare)
    (fun config g budget => ⟨registry_of_visited (.fresh config g budget), fun x r p hr => by
      cases hr⟩) h
  exact ((stable_lineal False).course course lineal).descent ho
    ((stable_template o).course course saved)

/-- Someone whose id contains the separator has been made a template and has left. -/
def orphaned : Session :=
  (fresh .usual (Generator.ofSeed 0) 0).after
    [.register (Spawn.new "a__clone_x"), .saveTemplate "a__clone_x", .entity "a__clone_x" .delete]

theorem bare_orphaned : VisitedBy Call.Bare orphaned := by
  refine (VisitedBy.fresh _ _ _).after _ ?_
  simp only [List.forall_mem_cons]
  exact ⟨rfl, trivial, trivial, fun _ h => (by cases h)⟩

theorem descent_orphaned : Ambiguous "a__clone_x" ∧ orphaned.Descent "a__clone_x" :=
  ⟨by unfold Ambiguous; decide +kernel,
    descent_of_course bare_orphaned (by decide) (by decide +kernel) .start⟩

/-- **An id with a template need not lead back to itself.** -/
theorem prototypeOf_orphaned :
    ¬∀ (s : Session) (o : String), VisitedBy Call.Bare s → s.templates.contains o = true →
      s.prototypeOf o = o := by
  intro all
  have wrong := all orphaned "a__clone_x" bare_orphaned (by decide +kernel)
  exact absurd wrong (by decide +kernel)

end Session

end BlockStage
