/-
  Places: where the path of a diagnostic leads.

  1. **Following a path (`Program.find?`)** — a path is cut at its slashes.  Its first part is the
     position of a top-level block; from a block on, the name of a body is followed by a position in
     it, and every other part names the block plugged into that slot.

  2. **Places beneath a root (`Within`)** — a compilation of a part of a program only reports places
     beneath the path of that part, each of them once.  Reports of several parts can be put together
     as long as what follows the root differs (`Within.append`), and reports of one slot are reports
     of its block (`Within.child`).
-/
import BlockStage.Proofs.Digits
import BlockStage.Script.Compiler
import Mathlib.Data.List.Nodup

namespace BlockStage

/-! ## Paths -/

/-- The parts of a path between its slashes. -/
def segments (path : String) : List String := (path.toList.splitOn '/').map String.ofList

section
variable {k : String} (hk : '/' ∉ k.toList)
include hk

theorem segments_single : segments k = [k] := by
  rw [segments, List.splitOn_eq_singleton hk, List.map_singleton, String.ofList_toList]

/-- A path that is taken a step further. -/
theorem segments_step (path : String) : segments (path ++ "/" ++ k) = segments path ++ [k] := by
  have chars : (path ++ "/" ++ k).toList = path.toList ++ '/' :: k.toList := by
    rw [String.toList_append, String.toList_append, List.append_assoc]
    rfl
  have parts : (path.toList ++ '/' :: k.toList).splitOn '/'
      = path.toList.splitOn '/' ++ k.toList.splitOn '/' :=
    List.splitOnP_append_cons _ _ (beq_self_eq_true '/')
  rw [segments, chars, parts, List.map_append]
  exact congrArg (segments path ++ ·) (segments_single hk)

end

/-! ## Following a path -/

/-- The block at a written position, in a list whose positions begin with a number. -/
def blockAt? (k : String) : List Block → Nat → Option Block
  | [], _ => none
  | b :: rest, i => if toString i = k then some b else blockAt? k rest (i + 1)

/-- Is this the slot of a body? -/
def isBodySlot (k : String) : Bool := k == Compile.bodySlot || k == Compile.elseSlot

/-- Where the parts of a path lead from a block. -/
def Block.follow? : List String → Block → Option Block
  | [], b => some b
  | k :: path, b =>
    if isBodySlot k then
      match path with
      | [] => none
      | i :: rest => (blockAt? i (b.body k) 0).bind (follow? rest)
    else (b.inputs.lookup k).bind (follow? path)

/-- The block to which a path leads. -/
def Program.find? (p : Program) (path : String) : Option Block :=
  match segments path with
  | [] => none
  | i :: rest => (blockAt? i p 0).bind (Block.follow? rest)

section
variable {k : String} {b c : Block}

/-- The first block of a list is at its first position. -/
theorem blockAt?_self (b : Block) (rest : List Block) (i : Nat) :
    blockAt? (toString i) (b :: rest) i = some b := if_pos rfl

/-- The others are at later ones. -/
theorem blockAt?_later {i j : Nat} (later : i < j) (b : Block) (rest : List Block) :
    blockAt? (toString j) (b :: rest) i = blockAt? (toString j) rest (i + 1) :=
  if_neg fun same => Nat.ne_of_lt later (toString_inj.mp same)

theorem Block.follow?_input (hk : isBodySlot k = false) (hc : b.inputs.lookup k = some c)
    (path : List String) : b.follow? (k :: path) = c.follow? path := by
  rw [follow?.eq_def]
  dsimp only
  rw [hk, if_neg Bool.false_ne_true, hc]
  rfl

theorem Block.follow?_body (hk : isBodySlot k = true) (i : String) (path : List String) :
    b.follow? (k :: i :: path) = (blockAt? i (b.body k) 0).bind (follow? path) := by
  rw [follow?.eq_def]
  dsimp only
  rw [hk, if_pos rfl]

end

/-! ## Reports beneath a path -/

/-- Reports are at different places, each of which goes on from a root as it is said, and names the
    type of a block. -/
structure Within (root : List String) (onward : List String → String → Prop)
    (l : List Diagnostic) : Prop where
  leads : ∀ d ∈ l, ∃ rest, segments d.path = root ++ rest ∧ onward rest d.block
  apart : (l.map fun d => segments d.path).Nodup

namespace Within

variable {root : List String} {P Q : List String → String → Prop} {l m : List Diagnostic}

theorem nil : Within root P [] := ⟨fun _ h => (List.not_mem_nil h).elim, List.nodup_nil⟩

theorem mono (h : Within root P l) (hPQ : ∀ rest type, P rest type → Q rest type) :
    Within root Q l :=
  ⟨fun d hd => let ⟨rest, there, onward⟩ := h.leads d hd; ⟨rest, there, hPQ rest _ onward⟩, h.apart⟩

/-- Reports that go on from a root in different ways. -/
theorem append (h : Within root P l) (k : Within root Q m)
    (differ : ∀ rest t u, P rest t → ¬Q rest u) :
    Within root (fun rest type => P rest type ∨ Q rest type) (l ++ m) := by
  refine ⟨fun d hd => ?_, ?_⟩
  · rcases List.mem_append.mp hd with hd | hd
    · obtain ⟨rest, there, onward⟩ := h.leads d hd
      exact ⟨rest, there, .inl onward⟩
    · obtain ⟨rest, there, onward⟩ := k.leads d hd
      exact ⟨rest, there, .inr onward⟩
  · rw [List.map_append]
    refine List.nodup_append.mpr ⟨h.apart, k.apart, ?_⟩
    rintro _ hx _ hy rfl
    obtain ⟨d, hd, rfl⟩ := List.mem_map.mp hx
    obtain ⟨e, he, same⟩ := List.mem_map.mp hy
    obtain ⟨rest, there, onward⟩ := h.leads d hd
    obtain ⟨other, elsewhere, onward'⟩ := k.leads e he
    have : rest = other := List.append_cancel_left (there.symm.trans (same.symm.trans elsewhere))
    exact differ rest _ _ onward (this ▸ onward')

/-- Reports beneath a step further on. -/
theorem child {k : String} (h : Within (root ++ [k]) P l) :
    Within root (fun rest type => ∃ onward, rest = k :: onward ∧ P onward type) l := by
  refine ⟨fun d hd => ?_, h.apart⟩
  obtain ⟨rest, there, onward⟩ := h.leads d hd
  exact ⟨k :: rest, by rw [there, List.append_assoc, List.singleton_append], rest, rfl, onward⟩

/-- One report at the root itself. -/
theorem single {path : String} (here : segments path = root) (type : String) (problem : Problem) :
    Within root (fun rest t => rest = [] ∧ t = type) [⟨path, type, problem⟩] := by
  refine ⟨fun d hd => ?_, List.nodup_singleton _⟩
  obtain rfl := List.mem_singleton.mp hd
  exact ⟨[], here.trans (List.append_nil _).symm, rfl, rfl⟩

/-- The paths themselves differ. -/
theorem nodup_paths (h : Within root P l) : (l.map Diagnostic.path).Nodup := by
  refine List.Nodup.of_map segments ?_
  rw [List.map_map]
  exact h.apart

end Within

/-! ## Counting reports -/

/-- How many diagnostics are there with a path? -/
def reports (l : List Diagnostic) (path : String) : Nat := (l.map Diagnostic.path).count path

theorem reports_append (l m : List Diagnostic) (path : String) :
    reports (l ++ m) path = reports l path + reports m path := by
  rw [reports, List.map_append, List.count_append]
  rfl

theorem reports_append_comm (l m : List Diagnostic) (path : String) :
    reports (l ++ m) path = reports m path + reports l path := by
  rw [reports_append, Nat.add_comm]

theorem reports_single (path type : String) (problem : Problem) :
    reports [⟨path, type, problem⟩] path = 1 := List.count_singleton_self

/-- There are none with a path that is not led to. -/
theorem Within.reports_eq_zero {root : List String} {q : String}
    {P : List String → String → Prop} {l : List Diagnostic} (h : Within root P l)
    (away : ∀ rest type, segments q = root ++ rest → ¬P rest type) : reports l q = 0 := by
  refine List.count_eq_zero_of_not_mem fun hq => ?_
  obtain ⟨d, hd, rfl⟩ := List.mem_map.mp hq
  obtain ⟨rest, there, onward⟩ := h.leads d hd
  exact away rest _ there onward

end BlockStage
