import Mathlib.Data.List.Perm.Basic
import Mathlib.Data.List.Chain
import Mathlib.Data.List.Nodup
import Mathlib.Logic.Relation

/-!
# Depth-first search for cycles

The search paints every node white, gray or black and keeps the gray ones on a
stack, the path it stands on.  An edge back to a gray node closes a cycle, which is
reported as the stretch of the stack from that node on, back to it.

Not every cycle of the graph is reported, and not every node on a cycle is on a
reported one: a node may be reached through nodes that are black already.  What holds
is that the reported closing edges meet every cycle.  Without them the graph has no
cycle left, since a node turns black only when all its other edges lead to black
nodes.
-/

namespace DataOlympus.DepthFirst

universe u

variable {α : Type u}

inductive Color where
  | white
  | gray
  | black
  deriving DecidableEq

/-- The search so far. -/
structure Search (α : Type u) where
  color : α → Color
  /-- The gray nodes, the last one entered last. -/
  stack : List α
  /-- The cycles reported, each from a node back to it. -/
  cycles : List (List α)

namespace Search

/-- Nothing is visited yet. -/
def start : Search α where
  color _ := .white
  stack := []
  cycles := []

variable [DecidableEq α]

def paint (search : Search α) (node : α) (color : Color) : Search α :=
  { search with color := fun other => if other = node then color else search.color other }

/-- `node` turns gray and goes onto the stack. -/
def enter (search : Search α) (node : α) : Search α :=
  { search.paint node .gray with stack := search.stack ++ [node] }

/-- `node` leaves the stack and turns black. -/
def leave (search : Search α) (node : α) : Search α :=
  { search.paint node .black with stack := search.stack.dropLast }

/-- The cycle that an edge back to a gray node closes. -/
def close (search : Search α) (node : α) : Search α :=
  { search with
    cycles := search.cycles ++ [search.stack.drop (search.stack.idxOf node) ++ [node]] }

end Search

section Algorithm

variable [DecidableEq α] (next : α → List α)

/-- One neighbor of the node the search stands on, with `visit` for a white one. -/
def look (visit : α → Search α → Option (Search α)) (search : Search α) (neighbor : α) :
    Option (Search α) :=
  match search.color neighbor with
  | .white => visit neighbor search
  | .gray => some (search.close neighbor)
  | .black => some search

/-- Visit a white node.  The fuel bounds the depth of the recursion. -/
def visit : Nat → α → Search α → Option (Search α)
  | 0, _, _ => none
  | fuel + 1, node, search => do
      let walked ← (next node).foldlM (look (visit fuel)) (search.enter node)
      some (walked.leave node)

/-- Visit a node unless it was reached before. -/
def visitNew (fuel : Nat) (search : Search α) (node : α) : Option (Search α) :=
  if search.color node = .white then visit next fuel node search else some search

/-- Search from every node of a list. -/
def searchFrom (fuel : Nat) (nodes : List α) : Option (Search α) :=
  nodes.foldlM (visitNew next fuel) Search.start

end Algorithm

/-! ## Cycles and closing edges -/

variable {next : α → List α}

/-- `target` is a neighbor of `source`. -/
def Edge (next : α → List α) (source target : α) : Prop :=
  target ∈ next source

/-- A closed walk with at least one edge, written from a node back to it. -/
def IsCycle (next : α → List α) (cycle : List α) : Prop :=
  ∃ first inner, cycle = first :: inner ++ [first] ∧ cycle.IsChain (Edge next)

/-- The edge that closes one of the cycles. -/
def Closes (cycles : List (List α)) (source target : α) : Prop :=
  ∃ path, path ++ [source, target] ∈ cycles

/-- An edge that closes none of the cycles. -/
def Open (next : α → List α) (cycles : List (List α)) (source target : α) : Prop :=
  Edge next source target ∧ ¬Closes cycles source target

theorem Closes.mono {cycles further : List (List α)} (more : cycles ⊆ further)
    {source target : α} (closes : Closes cycles source target) :
    Closes further source target := by
  rcases closes with ⟨path, member⟩
  exact ⟨path, more member⟩

theorem Open.anti {cycles further : List (List α)} (more : cycles ⊆ further)
    {source target : α} (stays : Open next further source target) :
    Open next cycles source target :=
  ⟨stays.1, fun closes => stays.2 (closes.mono more)⟩

/-- No infinite walk along open edges starts at the node. -/
def Settled (next : α → List α) (cycles : List (List α)) (node : α) : Prop :=
  Acc (fun target source => Open next cycles source target) node

theorem Settled.mono {cycles further : List (List α)} (more : cycles ⊆ further) {node : α}
    (settled : Settled next cycles node) : Settled next further node := by
  induction settled with
  | intro node _ ih => exact Acc.intro node fun target stays => ih target (stays.anti more)

/-- A settled node is on no cycle of open edges. -/
theorem Settled.not_transGen {cycles : List (List α)} {node : α}
    (settled : Settled next cycles node) :
    ¬Relation.TransGen (Open next cycles) node node := by
  induction settled with
  | intro node _ ih =>
      intro around
      rcases Relation.TransGen.head'_iff.mp around with ⟨target, stays, back⟩
      have ahead : Relation.TransGen (Open next cycles) target target :=
        Relation.TransGen.trans_right back (Relation.TransGen.single stays)
      exact ih target stays ahead

/-! ## The invariant -/

/-- What holds between two visits. -/
structure Sound (next : α → List α) (search : Search α) : Prop where
  gray : ∀ node, search.color node = .gray ↔ node ∈ search.stack
  nodup : search.stack.Nodup
  path : search.stack.IsChain (Edge next)
  real : ∀ cycle ∈ search.cycles, IsCycle next cycle
  settled : ∀ node, search.color node = .black → Settled next search.cycles node

/-- A later stage of the search with the same stack. -/
structure Later (search further : Search α) : Prop where
  stack : further.stack = search.stack
  black : ∀ node, search.color node = .black → further.color node = .black
  cycles : search.cycles ⊆ further.cycles

theorem Later.refl (search : Search α) : Later search search :=
  ⟨rfl, fun _ black => black, List.Subset.refl _⟩

theorem Later.trans {search middle further : Search α} (first : Later search middle)
    (second : Later middle further) : Later search further :=
  ⟨second.stack.trans first.stack, fun node black => second.black node (first.black node black),
    fun _ member => second.cycles (first.cycles member)⟩

theorem sound_start : Sound next Search.start where
  gray _ := by simp [Search.start]
  nodup := List.nodup_nil
  path := List.IsChain.nil
  real _ member := absurd member List.not_mem_nil
  settled _ black := by cases black

section Steps

variable [DecidableEq α] {search : Search α} {node : α}

/-- The node the search stands on has an edge to `node`. -/
def Ahead (next : α → List α) (search : Search α) (node : α) : Prop :=
  ∀ last ∈ search.stack.getLast?, Edge next last node

theorem Sound.enter (sound : Sound next search) (white : search.color node = .white)
    (ahead : Ahead next search node) : Sound next (search.enter node) := by
  have fresh : node ∉ search.stack := by
    rw [← sound.gray, white]
    decide
  constructor
  · intro other
    by_cases same : other = node
    · simp [Search.enter, Search.paint, same]
    · simp [Search.enter, Search.paint, same, sound.gray]
  · exact List.nodup_append.mpr ⟨sound.nodup, List.nodup_singleton _, by
      rintro other member _ (_ | ⟨_, ⟨⟩⟩) rfl
      exact fresh member⟩
  · exact List.isChain_append.mpr ⟨sound.path, List.isChain_singleton _, by
      rintro last isLast _ ⟨⟩
      exact ahead last isLast⟩
  · exact sound.real
  · intro other black
    by_cases same : other = node
    · simp [Search.enter, Search.paint, same] at black
    · exact sound.settled other (by simpa [Search.enter, Search.paint, same] using black)

/-- The stretch of a path from a node on to its end. -/
theorem exists_drop_idxOf {stack : List α} (member : node ∈ stack) :
    ∃ before after, stack = before ++ node :: after ∧
      stack.drop (stack.idxOf node) = node :: after := by
  rcases List.append_of_mem member with ⟨_, _, _⟩
  have bound : stack.idxOf node < stack.length := List.idxOf_lt_length_of_mem member
  have split : stack.drop (stack.idxOf node) =
      stack[stack.idxOf node] :: stack.drop (stack.idxOf node + 1) :=
    List.drop_eq_getElem_cons bound
  rw [List.getElem_idxOf] at split
  refine ⟨stack.take (stack.idxOf node), _, ?_, split⟩
  rw [← split, List.take_append_drop]

/-- An edge from the end of the stack back to a gray node closes a real cycle. -/
theorem Sound.close (sound : Sound next search) (gray : search.color node = .gray)
    (ahead : Ahead next search node) : Sound next (search.close node) := by
  rcases exists_drop_idxOf ((sound.gray node).mp gray) with ⟨before, after, split, dropped⟩
  have chain : (before ++ node :: after).IsChain (Edge next) := split ▸ sound.path
  have cycle : IsCycle next (node :: after ++ [node]) := by
    refine ⟨node, after, rfl, List.isChain_append.mpr ⟨chain.right_of_append,
      List.isChain_singleton _, ?_⟩⟩
    rintro last isLast _ ⟨⟩
    apply ahead
    rw [split, List.getLast?_append, isLast]
    rfl
  constructor
  · exact sound.gray
  · exact sound.nodup
  · exact sound.path
  · intro found member
    rcases List.mem_append.mp member with old | new
    · exact sound.real found old
    · rw [List.mem_singleton.mp new, dropped]
      exact cycle
  · intro other black
    exact (sound.settled other black).mono (List.subset_append_left _ _)

theorem later_close (search : Search α) (node : α) : Later search (search.close node) :=
  ⟨rfl, fun _ black => black, List.subset_append_left _ _⟩

/-- The reported cycle ends with the edge that closed it. -/
theorem closes_close {source : α} (sound : Sound next search)
    (gray : search.color node = .gray) (standing : search.stack.getLast? = some source) :
    Closes (search.close node).cycles source node := by
  rcases exists_drop_idxOf ((sound.gray node).mp gray) with ⟨before, after, split, dropped⟩
  have isLast : (node :: after).getLast? = some source := by
    rw [split, List.getLast?_append] at standing
    cases found : (node :: after).getLast? with
    | none => simp at found
    | some last => simpa [found] using standing
  rcases List.getLast?_eq_some_iff.mp isLast with ⟨path, path_eq⟩
  refine ⟨path, List.mem_append_right _ (List.mem_singleton.mpr ?_)⟩
  rw [dropped, path_eq, List.append_assoc]
  rfl

/-- A node whose neighbors are all black, or reached by a closing edge, turns black. -/
theorem Sound.leave {stack : List α} (sound : Sound next search)
    (standing : search.stack = stack ++ [node])
    (done : ∀ neighbor ∈ next node,
      search.color neighbor = .black ∨ Closes search.cycles node neighbor) :
    Sound next (search.leave node) := by
  have nodup : (stack ++ [node]).Nodup := standing ▸ sound.nodup
  have left : (search.leave node).stack = stack := by
    simp [Search.leave, Search.paint, standing]
  have fresh : node ∉ stack := fun member =>
    (List.nodup_append.mp nodup).2.2 node member node (List.mem_singleton_self _) rfl
  constructor
  · intro other
    rw [left]
    by_cases same : other = node
    · simp [Search.leave, Search.paint, same, fresh]
    · simp [Search.leave, Search.paint, same, sound.gray, standing]
  · rw [left]
    exact (List.nodup_append.mp nodup).1
  · rw [left]
    have path : (stack ++ [node]).IsChain (Edge next) := standing ▸ sound.path
    exact path.left_of_append
  · exact sound.real
  · intro other black
    by_cases same : other = node
    · subst same
      apply Acc.intro
      intro target stays
      rcases done target stays.1 with black | closes
      · exact sound.settled target black
      · exact absurd closes stays.2
    · exact sound.settled other (by simpa [Search.leave, Search.paint, same] using black)

end Steps

/-! ## The whole search -/

/-- A white node of the list leaves the stack shorter than the list. -/
theorem Sound.length_stack_lt {nodes : List α} {search : Search α} {node : α}
    (sound : Sound next search) (within : search.stack ⊆ nodes) (known : node ∈ nodes)
    (white : search.color node = .white) : search.stack.length < nodes.length := by
  have fresh : node ∉ search.stack := by
    rw [← sound.gray, white]
    decide
  have nodup : (node :: search.stack).Nodup := List.nodup_cons.mpr ⟨fresh, sound.nodup⟩
  have small := List.subperm_of_subset nodup (List.cons_subset.mpr ⟨known, within⟩)
  exact small.length_le

section Whole

variable [DecidableEq α]

/-- One neighbor, given what a visit of a white node does. -/
theorem look_sound {visit : α → Search α → Option (Search α)} {search : Search α}
    {node neighbor : α} (sound : Sound next search)
    (standing : search.stack.getLast? = some node) (edge : Edge next node neighbor)
    (visits : search.color neighbor = .white → Ahead next search neighbor →
      ∃ further, visit neighbor search = some further ∧ Sound next further ∧
        Later search further ∧ further.color neighbor = .black) :
    ∃ further, look visit search neighbor = some further ∧ Sound next further ∧
      Later search further ∧
      (further.color neighbor = .black ∨ Closes further.cycles node neighbor) := by
  have ahead : Ahead next search neighbor := by
    rintro last isLast
    rw [standing] at isLast
    cases isLast
    exact edge
  unfold look
  cases color : search.color neighbor with
  | white =>
      rcases visits color ahead with ⟨further, visited, sound', later, black⟩
      exact ⟨further, visited, sound', later, .inl black⟩
  | gray =>
      exact ⟨_, rfl, sound.close color ahead, later_close _ _,
        .inr (closes_close sound color standing)⟩
  | black => exact ⟨search, rfl, sound, Later.refl _, .inl color⟩

/-- All the neighbors of a list, in turn. -/
theorem exists_foldlM_look {visit : α → Search α → Option (Search α)} {node : α}
    (neighbors : List α) {search : Search α} (sound : Sound next search)
    (standing : search.stack.getLast? = some node)
    (edges : ∀ neighbor ∈ neighbors, Edge next node neighbor)
    (visits : ∀ search' : Search α, Sound next search' → search'.stack = search.stack →
      ∀ neighbor ∈ neighbors, search'.color neighbor = .white → Ahead next search' neighbor →
        ∃ further, visit neighbor search' = some further ∧ Sound next further ∧
          Later search' further ∧ further.color neighbor = .black) :
    ∃ further, neighbors.foldlM (look visit) search = some further ∧ Sound next further ∧
      Later search further ∧ ∀ neighbor ∈ neighbors,
        further.color neighbor = .black ∨ Closes further.cycles node neighbor := by
  induction neighbors generalizing search with
  | nil => exact ⟨search, rfl, sound, Later.refl _, fun _ member => absurd member List.not_mem_nil⟩
  | cons neighbor rest ih =>
      rcases look_sound sound standing (edges neighbor List.mem_cons_self)
        (visits search sound rfl neighbor List.mem_cons_self) with
        ⟨middle, looked, soundMiddle, laterMiddle, doneMiddle⟩
      have standingMiddle : middle.stack.getLast? = some node := by
        rw [laterMiddle.stack, standing]
      rcases ih soundMiddle standingMiddle
        (fun other member => edges other (List.mem_cons_of_mem _ member))
        (fun search' sound' same other member =>
          visits search' sound' (same.trans laterMiddle.stack) other
            (List.mem_cons_of_mem _ member)) with ⟨further, folded, sound', later, done⟩
      refine ⟨further, ?_, sound', laterMiddle.trans later, ?_⟩
      · rw [List.foldlM_cons, looked]
        exact folded
      · rintro other (_ | ⟨_, member⟩)
        · exact doneMiddle.imp (later.black _) (Closes.mono later.cycles)
        · exact done other member

/-- A visit of a white node ends, keeps the invariant and leaves the node black. -/
theorem exists_visit {nodes : List α} (closed : ∀ source ∈ nodes, next source ⊆ nodes)
    (fuel : Nat) {search : Search α} {node : α} (sound : Sound next search)
    (within : search.stack ⊆ nodes) (known : node ∈ nodes)
    (white : search.color node = .white) (ahead : Ahead next search node)
    (enough : nodes.length ≤ fuel + search.stack.length) :
    ∃ further, visit next fuel node search = some further ∧ Sound next further ∧
      Later search further ∧ further.color node = .black := by
  induction fuel generalizing search node with
  | zero =>
      have room := sound.length_stack_lt within known white
      omega
  | succ fuel ih =>
      have standing : (search.enter node).stack = search.stack ++ [node] := rfl
      have last : (search.enter node).stack.getLast? = some node := by
        rw [standing, List.getLast?_concat]
      have withinEntered : (search.enter node).stack ⊆ nodes := by
        rw [standing]
        exact List.append_subset.mpr ⟨within, by simpa using known⟩
      rcases @exists_foldlM_look _ _ _ (visit next fuel) node (next node) _
        (sound.enter white ahead) last (fun _ member => member)
        (fun search' sound' same neighbor member white' ahead' =>
          ih sound' (same ▸ withinEntered) (closed node known member) white' ahead' (by
            rw [same, standing, List.length_append, List.length_singleton]
            omega)) with ⟨walked, folded, soundWalked, later, done⟩
      refine ⟨walked.leave node, ?_, soundWalked.leave later.stack done, ?_, ?_⟩
      · rw [visit, folded]
        rfl
      · constructor
        · simp [Search.leave, Search.paint, later.stack, standing]
        · intro other black
          by_cases same : other = node
          · simp [Search.leave, Search.paint, same]
          · have entered : (search.enter node).color other = .black := by
              simpa [Search.enter, Search.paint, same] using black
            simpa [Search.leave, Search.paint, same] using later.black other entered
        · exact later.cycles
      · simp [Search.leave, Search.paint]

/-- The search from a list of nodes ends, and leaves all of them black. -/
theorem exists_searchFrom {nodes : List α} (closed : ∀ source ∈ nodes, next source ⊆ nodes)
    {fuel : Nat} (enough : nodes.length ≤ fuel) (starts : List α) {search : Search α}
    (known : starts ⊆ nodes) (sound : Sound next search) (empty : search.stack = []) :
    ∃ further, starts.foldlM (visitNew next fuel) search = some further ∧
      Sound next further ∧ Later search further ∧
      ∀ node ∈ starts, further.color node = .black := by
  induction starts generalizing search with
  | nil => exact ⟨search, rfl, sound, Later.refl _, fun _ member => absurd member List.not_mem_nil⟩
  | cons node rest ih =>
      have knownNode : node ∈ nodes := known List.mem_cons_self
      have visited : ∃ middle, visitNew next fuel search node = some middle ∧
          Sound next middle ∧ Later search middle ∧ middle.color node = .black := by
        unfold visitNew
        cases color : search.color node with
        | white =>
            rw [if_pos rfl]
            exact exists_visit closed fuel sound (by simp [empty]) knownNode color
              (by simp [Ahead, empty]) (Nat.le_add_right_of_le enough)
        | gray =>
            have member := (sound.gray node).mp color
            rw [empty] at member
            exact absurd member List.not_mem_nil
        | black =>
            rw [if_neg (by decide)]
            exact ⟨search, rfl, sound, Later.refl _, color⟩
      rcases visited with ⟨middle, stepped, soundMiddle, laterMiddle, black⟩
      rcases ih (fun _ member => known (List.mem_cons_of_mem _ member)) soundMiddle
        (laterMiddle.stack.trans empty) with ⟨further, folded, sound', later, done⟩
      refine ⟨further, ?_, sound', laterMiddle.trans later, ?_⟩
      · rw [List.foldlM_cons, stepped]
        exact folded
      · rintro other (_ | ⟨_, member⟩)
        · exact later.black node black
        · exact done other member

/-- The cycles a search reports are real, and no start is on a cycle of open edges. -/
theorem exists_searchFrom_start {nodes : List α}
    (closed : ∀ source ∈ nodes, next source ⊆ nodes) {fuel : Nat}
    (enough : nodes.length ≤ fuel) {starts : List α} (known : starts ⊆ nodes) :
    ∃ search, searchFrom next fuel starts = some search ∧
      (∀ cycle ∈ search.cycles, IsCycle next cycle) ∧
      ∀ node ∈ starts, Settled next search.cycles node := by
  rcases exists_searchFrom closed enough starts known sound_start rfl with
    ⟨search, found, sound, -, done⟩
  exact ⟨search, found, sound.real, fun node member => sound.settled node (done node member)⟩

end Whole

/-! ## What the reported cycles say about the graph -/

/-- A walk with at least one edge. -/
theorem transGen_of_isChain {relation : α → α → Prop} {first last : α} {inner : List α}
    (walk : (first :: inner ++ [last]).IsChain relation) :
    Relation.TransGen relation first last := by
  induction inner generalizing first with
  | nil => exact Relation.TransGen.single (List.isChain_cons_cons.mp walk).1
  | cons second rest ih =>
      have split := List.isChain_cons_cons.mp walk
      exact Relation.TransGen.head split.1 (ih split.2)

/-- A walk keeps to open edges unless it takes a closing edge. -/
theorem isChain_open_or {cycles : List (List α)} {walk : List α}
    (chain : walk.IsChain (Edge next)) :
    walk.IsChain (Open next cycles) ∨
      ∃ before source target after, walk = before ++ source :: target :: after ∧
        Closes cycles source target := by
  induction walk with
  | nil => exact .inl List.IsChain.nil
  | cons first rest ih =>
      cases rest with
      | nil => exact .inl (List.isChain_singleton _)
      | cons second rest =>
          have split := List.isChain_cons_cons.mp chain
          by_cases closes : Closes cycles first second
          · exact .inr ⟨[], first, second, rest, rfl, closes⟩
          · rcases ih split.2 with stays | ⟨before, source, target, after, walk_eq, found⟩
            · exact .inl (List.isChain_cons_cons.mpr ⟨⟨split.1, closes⟩, stays⟩)
            · exact .inr ⟨first :: before, source, target, after, by rw [walk_eq]; rfl, found⟩

/-- The closing edges of the reported cycles meet every cycle through a settled node. -/
theorem IsCycle.exists_closes {cycles : List (List α)} {cycle : List α}
    (real : IsCycle next cycle) (settled : ∀ node ∈ cycle, Settled next cycles node) :
    ∃ before source target after, cycle = before ++ source :: target :: after ∧
      Closes cycles source target := by
  rcases real with ⟨first, inner, rfl, chain⟩
  rcases @isChain_open_or _ _ cycles _ chain with stays | found
  · exact absurd (transGen_of_isChain stays) (settled first (by simp)).not_transGen
  · exact found

/-- Both ends of a closing edge are on a reported cycle. -/
theorem Closes.exists_mem {cycles : List (List α)} {source target : α}
    (closes : Closes cycles source target) :
    ∃ cycle ∈ cycles, source ∈ cycle ∧ target ∈ cycle := by
  rcases closes with ⟨path, member⟩
  exact ⟨_, member, by simp, by simp⟩

/-- The last node of a cycle is its first one. -/
theorem IsCycle.mem_dropLast {cycle : List α} (real : IsCycle next cycle) {node : α} :
    node ∈ cycle.dropLast ↔ node ∈ cycle := by
  rcases real with ⟨first, inner, rfl, -⟩
  rw [List.dropLast_concat]
  constructor
  · exact List.mem_append_left _
  · intro member
    rcases List.mem_append.mp member with before | last
    · exact before
    · rw [List.mem_singleton.mp last]
      exact List.mem_cons_self

/-- A node on a real cycle has an edge. -/
theorem IsCycle.next_ne_nil {cycle : List α} (real : IsCycle next cycle) {node : α}
    (member : node ∈ cycle) : next node ≠ [] := by
  have before := real.mem_dropLast.mpr member
  rcases real with ⟨first, inner, rfl, chain⟩
  rw [List.dropLast_concat] at before
  rcases List.append_of_mem before with ⟨ahead, after, split⟩
  intro empty
  have edge : ∃ target, Edge next node target := by
    rw [split, List.append_assoc] at chain
    have rest := chain.right_of_append
    cases after with
    | nil => exact ⟨_, (List.isChain_cons_cons.mp rest).1⟩
    | cons second after => exact ⟨_, (List.isChain_cons_cons.mp rest).1⟩
  rcases edge with ⟨target, edge⟩
  rw [Edge, empty] at edge
  exact absurd edge List.not_mem_nil

end DataOlympus.DepthFirst
