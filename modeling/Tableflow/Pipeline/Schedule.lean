/-!
# Schedules

Vertices are numbers below `n`, and each names the vertices that must come before it. `order` lists
all of them so that none comes before one that it names, and always takes the least vertex that
could come next; where there is no such list, it tells which vertices lie on a cycle.

The list is made one vertex at a time: a `Progress` counts for every vertex how many of those that
it names are not listed yet (`pending`) and holds, ascending, the ones with none left (`ready`).
Vertices that are never ready lie on a cycle or behind one; the ones on a cycle are those that a
search among them leads back to.
-/

namespace Tableflow

/-- For every vertex the vertices that must come before it. -/
structure Precedence (n : Nat) where
  predecessors : Vector (List (Fin n)) n
  nodup : ∀ i : Fin n, (predecessors.get i).Nodup

variable {n : Nat}

/-- For every vertex the vertices that name it, ascending. -/
def Precedence.successors (p : Precedence n) : Vector (List (Fin n)) n :=
  Vector.ofFn fun i => (List.finRange n).filter fun j => i ∈ p.predecessors.get j

/-! ## Listing the vertices -/

/-- A stage in the listing of the vertices. -/
structure Progress (n : Nat) where
  /-- The vertices listed so far. -/
  emitted : List (Fin n)
  /-- For every vertex the number of vertices before it that are not listed yet. -/
  pending : Vector Nat n
  /-- The vertices that can come next, ascending. -/
  ready : List (Fin n)
  deriving DecidableEq

namespace Progress

/-- Puts a vertex into an ascending list. -/
def insertAscending (i : Fin n) : List (Fin n) → List (Fin n)
  | [] => [i]
  | j :: rest => if i < j then i :: j :: rest else j :: insertAscending i rest

/-- Counts for a vertex that one of those before it has been listed. -/
def release (s : Progress n) (i : Fin n) : Progress n :=
  let left := s.pending.get i - 1
  { s with
    pending := s.pending.set i left i.isLt
    ready := if left = 0 then insertAscending i s.ready else s.ready }

/-- Lists the least ready vertex; `next` holds for every vertex the ones that name it. -/
def advance (next : Vector (List (Fin n)) n) (s : Progress n) : Progress n :=
  match s.ready with
  | [] => s
  | i :: rest => (next.get i).foldl release { s with emitted := s.emitted ++ [i], ready := rest }

/-- The vertices that still wait for another one. -/
def waiting (s : Progress n) : List (Fin n) := (List.finRange n).filter fun i => 0 < s.pending.get i

end Progress

namespace Precedence

/-- The stage at which nothing is listed. -/
def start (p : Precedence n) : Progress n where
  emitted := []
  pending := p.predecessors.map List.length
  ready := (List.finRange n).filter fun i => (p.predecessors.get i).isEmpty

/-- The stage after some number of advances. -/
def progress (p : Precedence n) (count : Nat) : Progress n :=
  let next := p.successors
  Nat.repeat (Progress.advance next) count p.start

end Precedence

/-! ## Searching for cycles -/

namespace Precedence

/-- Whether a search finds a target: on the stack, or beyond a vertex on the stack that is one of
the unvisited vertices, and so on. -/
def search (next : Vector (List (Fin n)) n) (target : Fin n) (unvisited : List (Fin n)) :
    List (Fin n) → Bool
  | [] => false
  | i :: stack =>
    if i = target then true
    else if i ∈ unvisited then search next target (unvisited.erase i) (next.get i ++ stack)
    else search next target unvisited stack
termination_by stack => (unvisited.length, stack.length)
decreasing_by
  · next h =>
    have := List.length_erase_of_mem h
    have := List.length_pos_of_mem h
    exact Prod.Lex.left _ _ (by omega)
  · exact Prod.Lex.right _ (by simp)

/-- Whether a path of one or more edges leads from a vertex to another one with all vertices in
between among those `within`. -/
def reaches (next : Vector (List (Fin n)) n) (within : List (Fin n)) (source target : Fin n) :
    Bool :=
  search next target within (next.get source)

/-- The vertices among those that wait at a stage which a path leads back to, ascending. -/
def cycle (p : Precedence n) (s : Progress n) : List (Fin n) :=
  let next := p.successors
  let waiting := s.waiting
  waiting.filter fun i => reaches next waiting i i

/-- The list of all vertices, or the vertices that lie on a cycle. -/
def order (p : Precedence n) : Except (List (Fin n)) (List (Fin n)) :=
  let final := p.progress n
  if final.emitted.length = n then .ok final.emitted else .error (p.cycle final)

end Precedence

end Tableflow
