import Tableflow.Proofs.Program
import Tableflow.Registry

/-!
# Serving requests

A registry is used through requests: to register a pipeline, to run the one under a name, and to
clear the runs of a name. `serveAll` serves a list of them for whatever holds the state, so that two
ways to hold it can be compared: if one step of the first is one step of the second, then so is the
whole service (`serveAll_eq_map`), and what every step keeps the whole service keeps
(`satisfiesM_serveAll`), also if it speaks of the requests to come (`satisfiesM_serveAll_pending`).
-/

namespace Tableflow

variable {m : Type → Type}

/-! ## Requests -/

/-- A request to a registry. -/
inductive Request (m : Type → Type)
  | register (p : Pipeline m)
  | run (name : String) (id : RunId)
  | clear (name : String)

/-- What a request is answered with. -/
inductive Reply
  | registered
  | ran (result : Except Fault Run)
  | cleared (removed : Nat)

variable [Monad m]

/-- Serves requests one after another, for the replies in their order and the last state. -/
def serveAll {σ : Type} (serve : σ → Request m → m (Reply × σ)) :
    σ → List (Request m) → m (List Reply × σ)
  | s, [] => return ([], s)
  | s, request :: rest => do
    let first ← serve s request
    let others ← serveAll serve first.2 rest
    return (first.1 :: others.1, others.2)

namespace Registry

/-- A registry as it is opened, with or without a limit. -/
def opened : Option Nat → Registry m
  | none => empty
  | some limit => withRetention limit

/-- Serves a request. -/
def serve (now : m Instant) (r : Registry m) : Request m → m (Reply × Registry m)
  | .register p => return (.registered, r.register p)
  | .run name id => do
    let ran ← r.run name id now
    return (.ran ran.1, ran.2)
  | .clear name =>
    let cleared := r.clearRuns name
    return (.cleared cleared.2, cleared.1)

end Registry

/-! ## Running -/

namespace Registry

variable {r : Registry m} {name : String}

theorem run_of_missing {fault : Fault} (h : r.pipeline name = .error fault) (id : RunId)
    (now : m Instant) : r.run name id now = pure (.error fault, r) := by
  rw [run, h]

theorem run_of_pipeline [LawfulMonad m] {p : Pipeline m} (h : r.pipeline name = .ok p)
    (id : RunId) (now : m Instant) :
    r.run name id now = (fun o => (o.toExcept, r.record name o.run)) <$> p.execute id now := by
  rw [run, h]
  exact bind_pure_comp ..

end Registry

/-! ## Whole services -/

variable [LawfulMonad m] {σ τ : Type} {P : σ → Prop} {serve : σ → Request m → m (Reply × σ)}

/-- What every request keeps of the state and of the requests to come is left at the end. -/
theorem satisfiesM_serveAll_pending {P : σ → List (Request m) → Prop}
    (hkeep : ∀ s request rest, P s (request :: rest) →
      SatisfiesM (fun r => P r.2 rest) (serve s request))
    {s : σ} {requests : List (Request m)} (hs : P s requests) :
    SatisfiesM (fun r => P r.2 []) (serveAll serve s requests) := by
  induction requests generalizing s with
  | nil => exact .pure hs
  | cons request rest ih =>
    rw [serveAll]
    exact (hkeep s request rest hs).bind fun first hfirst =>
      (ih hfirst).bind fun others hothers => .pure hothers

/-- What every request keeps, all of them keep. -/
theorem satisfiesM_serveAll
    (hkeep : ∀ s, P s → ∀ request, SatisfiesM (fun r => P r.2) (serve s request)) {s : σ}
    (hs : P s) (requests : List (Request m)) :
    SatisfiesM (fun r => P r.2) (serveAll serve s requests) :=
  satisfiesM_serveAll_pending (P := fun s _ => P s) (fun s request _ hs => hkeep s hs request) hs

/-- Two ways to hold the state that agree on every request agree on all of them. -/
theorem serveAll_eq_map {serve' : τ → Request m → m (Reply × τ)} {f : σ → τ}
    (hkeep : ∀ s, P s → ∀ request, SatisfiesM (fun r => P r.2) (serve s request))
    (hstep : ∀ s, P s → ∀ request, serve' (f s) request = Prod.map id f <$> serve s request)
    {s : σ} (hs : P s) (requests : List (Request m)) :
    serveAll serve' (f s) requests = Prod.map id f <$> serveAll serve s requests := by
  induction requests generalizing s with
  | nil => simp only [serveAll, map_pure, Prod.map_apply, id_eq]
  | cons request rest ih =>
    rw [serveAll, serveAll, hstep s hs request, bind_map_left, map_bind]
    refine bind_congr_of_satisfiesM (hkeep s hs request) fun first hfirst => ?_
    simp only [Prod.map_fst, Prod.map_snd, ih hfirst, bind_map_left, map_bind, map_pure]
    rfl

end Tableflow
