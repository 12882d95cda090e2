/-
  Catalogs: what holds of all of them.

  1. **Specification (`Session.AllCatalogs`)** — catalogs are made empty, added to behavior by
     behavior, copied into templates, and from there to clones.  What holds of the empty catalog and
     is kept when a behavior is added (`Catalog.Hereditary`) holds of all catalogs and of those in
     templates, as long as only such behaviors are added.

  2. Scripts add loops and hosts add hats; whatever else is done to a session leaves catalogs as they
     are, copies them or takes them away.
-/
import BlockStage.Proofs.Session.Chores

namespace BlockStage

namespace Catalog

/-- A property of catalogs that holds of the empty one, and that registering a behavior of some kind
    keeps. -/
structure Hereditary (adds : Behavior → Prop) (Q : Catalog → Prop) : Prop where
  empty : Q .empty
  register : ∀ {c : Catalog} (b : Behavior), adds b → Q c → Q (c.register b).2

theorem Hereditary.registerAll {adds : Behavior → Prop} {Q : Catalog → Prop} (hQ : Hereditary adds Q)
    {bs : List Behavior} (hb : ∀ b ∈ bs, adds b) {c : Catalog} (hc : Q c) :
    Q (c.registerAll bs).2 := by
  have added : ∀ (bs : List Behavior) (acc : Nat × Catalog), (∀ b ∈ bs, adds b) → Q acc.2 →
      Q (bs.foldl (fun acc b =>
        let r := acc.2.register b
        (if r.1 then acc.1 + 1 else acc.1, r.2)) acc).2 := by
    intro bs
    induction bs with
    | nil => exact fun _ _ h => h
    | cons b bs ih =>
      intro acc hb h
      obtain ⟨first, others⟩ := List.forall_mem_cons.mp hb
      exact ih _ others (hQ.register b first h)
  exact added bs (0, c) hb hc

end Catalog

namespace Session

variable {s t : Session} {Q : Catalog → Prop}

/-- All catalogs have a property, also those that clones will get. -/
structure AllCatalogs (Q : Catalog → Prop) (s : Session) : Prop where
  catalogs : ∀ id c, s.catalogs.get? id = some c → Q c
  templates : ∀ id t, s.templates.get? id = some t → Q t.catalog

namespace AllCatalogs

theorem same (hs : s.AllCatalogs Q) (catalogs : t.catalogs = s.catalogs)
    (templates : t.templates = s.templates) : t.AllCatalogs Q :=
  ⟨catalogs ▸ hs.catalogs, templates ▸ hs.templates⟩

theorem aside (hs : s.AllCatalogs Q) (h : s.Aside t) : t.AllCatalogs Q := by
  rw [h.rest]
  exact ⟨hs.catalogs, hs.templates⟩

/-- A catalog that has the property may be put in. -/
theorem insert (hs : s.AllCatalogs Q) (id : String) {c : Catalog} (hc : Q c) :
    ({ s with catalogs := s.catalogs.insert id c } : Session).AllCatalogs Q := by
  refine ⟨fun j d hd => ?_, hs.templates⟩
  rw [Table.get?_insert] at hd
  split at hd
  · exact Option.some.inj hd ▸ hc
  · exact hs.catalogs j d hd

theorem insertTemplate (hs : s.AllCatalogs Q) (id : String) {t : Template} (ht : Q t.catalog) :
    ({ s with templates := s.templates.insert id t } : Session).AllCatalogs Q := by
  refine ⟨hs.catalogs, fun j d hd => ?_⟩
  rw [Table.get?_insert] at hd
  split at hd
  · exact Option.some.inj hd ▸ ht
  · exact hs.templates j d hd

theorem deleteEntity (hs : s.AllCatalogs Q) (id : String) : (s.deleteEntity id).2.AllCatalogs Q := by
  rw [Session.deleteEntity]
  split
  · exact ⟨hs.catalogs, hs.templates⟩
  · refine ⟨fun j c hc => ?_, hs.templates⟩
    have hc : (s.catalogs.erase id).get? j = some c := hc
    rw [Table.get?_erase] at hc
    split at hc
    · cases hc
    · exact hs.catalogs j c hc

/-- Besides adding loops, scripts put nothing in. -/
theorem trick (h : Trick s t) (hs : s.AllCatalogs Q) : t.AllCatalogs Q := by
  cases h with
  | beside h => exact hs.aside h.toAside
  | stage h => exact hs.same rfl rfl
  | write id key v => exact hs.same rfl rfl
  | delete id => exact hs.deleteEntity id
  | stop =>
    rw [stopAll]
    split <;> exact hs.same rfl rfl

theorem chores {brings saves : String → Prop} {adds : Behavior → Prop}
    (hQ : Catalog.Hereditary adds Q) (h : Chores brings saves adds s t) (hs : s.AllCatalogs Q) :
    t.AllCatalogs Q := by
  induction h with
  | refl => exact hs
  | @tail t _ _ k ih =>
    cases k with
    | trick h => exact ih.trick h
    | catalog hb h => exact ih.insert _ (hQ.registerAll hb (ih.catalogs _ _ h))
    | @template id new hid h =>
      refine ih.insertTemplate id ?_
      rw [h]
      cases known : t.catalogs.get? id with
      | none => exact hQ.empty
      | some c => exact ih.catalogs id c known
    | define ds => exact ih.same rfl rfl
    | events => exact ih.same rfl rfl
    | enroll hd h =>
      obtain ⟨x, stage, -, rfl⟩ := enroll_ok h
      exact (ih.insert _ hQ.empty).same rfl rfl

/-- Nothing is listed after everything has been cleared away. -/
theorem of_empty (catalogs : s.catalogs = .empty) (templates : s.templates = .empty) :
    s.AllCatalogs Q := by
  refine ⟨fun id c h => ?_, fun id t h => ?_⟩
  · rw [catalogs] at h
    cases h
  · rw [templates] at h
    cases h

/-- What calls do that neither run scripts nor queue a message. -/
theorem plain {c : Call} (hQ : Catalog.Hereditary (c.Adds ·) Q) (hc : c.Plain)
    (hs : s.AllCatalogs Q) : (c.run.last s).AllCatalogs Q := by
  by_cases keeps : c.KeepsScene
  · exact hs.chores hQ (c.chores hc keeps s)
  · cases c with
    | loadScene scene =>
      have cleared : (s.stocked scene).AllCatalogs Q := of_empty rfl rfl
      exact cleared.chores hQ (Chores.loadScene s scene)
    | cleanup => exact of_empty rfl rfl
    | _ => exact absurd trivial keeps

theorem cloneStep {r : Except SessionError String} (hs : s.AllCatalogs Q) (h : CloneStep s r t) :
    t.AllCatalogs Q := by
  cases h with
  | refused serial h =>
    refine AllCatalogs.aside ?_ h
    exact ⟨hs.catalogs, hs.templates⟩
  | made room known spawned locals rest named =>
    refine AllCatalogs.aside ?_ rest
    exact (hs.insert _ (hs.templates _ _ known)).same rfl rfl

theorem clone (hs : s.AllCatalogs Q) (source : String) :
    (s.requestClone source).2.AllCatalogs Q := hs.cloneStep (s.requestClone_step source)

/-- A template that is renewed gets a catalog of the session. -/
theorem finishStart (hs : s.AllCatalogs Q) : (Play.finishStart s).AllCatalogs Q := by
  have renewed : ∀ (ids : List String) (s : Session), s.AllCatalogs Q →
      (ids.foldl Play.renewTemplate s).AllCatalogs Q := by
    intro ids
    induction ids with
    | nil => exact fun _ h => h
    | cons id ids ih =>
      refine fun s hs => ih _ ?_
      rw [Play.renewTemplate]
      split
      · rename_i t c _ known
        exact hs.insertTemplate id (hs.catalogs id c known)
      · exact hs
  exact (renewed _ s hs).same rfl rfl

end AllCatalogs

end Session

end BlockStage
