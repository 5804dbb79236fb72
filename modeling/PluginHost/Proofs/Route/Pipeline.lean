import PluginHost.Proofs.Route.Table
import PluginHost.Scripted

/-!
# How a request is served

A request that is resolved to a route goes through the middlewares of the route, those that its
plugin puts before every route first, and in the end to the handler; the first middleware that
answers ends it. To say what was called, the code behind the routes is made to write down its calls:
it does what it did before, so nothing else changes, and dispatch cannot tell the difference.

All of them see one request. It is the caller's but for its parameters, of which those of the path
take precedence: no caller can pass a value for a parameter of the path.

* `Service.logged`: a service that writes down its calls.
* `Visited`: the calls that a row of middlewares and a handler get, and in which order.
* `runPipeline_logged`: the pipeline, with and without the record.
* `withParams_params`: the parameters of the request that is seen.
* `dispatch_visits`: what becomes of a request that is resolved to a route.
-/
namespace PluginHost.Route

variable {ω : Type}

/-- A call of the code behind a route: with which request it was made, and what was answered. -/
inductive Visit where
  | intercept (middleware : Middleware) (request : Request) (answer : Option Response)
  | serve (handler : Handler) (request : Request) (response : Response)

/-- The same service, which also writes down its calls, the first one first. -/
def Service.logged (s : Service ω) : Service (ω × List Visit) where
  intercept middleware request w :=
    let (answer, next) := s.intercept middleware request w.1
    (answer, next, w.2 ++ [.intercept middleware request answer])
  serve handler request w :=
    let (response, next) := s.serve handler request w.1
    (response, next, w.2 ++ [.serve handler request response])

/-- What is called when a request goes through middlewares to a handler. Each place in the row is
called when all before it have let the request through, up to the first middleware that answers;
if there is none, the handler comes last. -/
inductive Visited (handler : Handler) (request : Request) :
    List Middleware → Response → List Visit → Prop where
  | served (response : Response) :
      Visited handler request [] response [.serve handler request response]
  | answered (m : Middleware) (ms : List Middleware) (response : Response) :
      Visited handler request (m :: ms) response [.intercept m request (some response)]
  | passed (m : Middleware) {ms : List Middleware} {response : Response} {visits : List Visit}
      (h : Visited handler request ms response visits) :
      Visited handler request (m :: ms) response (.intercept m request none :: visits)

section
variable {handler : Handler} {request : Request} {ms : List Middleware} {response : Response}
  {visits : List Visit}

/-- Either one of the middlewares answers, and the ones before it have let the request through; or
all have, and then the handler was called. -/
theorem Visited.ends (h : Visited handler request ms response visits) :
    (∃ before m after, ms = before ++ m :: after ∧
        visits = before.map (.intercept · request none) ++
          [.intercept m request (some response)]) ∨
      visits = ms.map (.intercept · request none) ++ [.serve handler request response] := by
  induction h with
  | served response => exact Or.inr rfl
  | answered m ms response => exact Or.inl ⟨[], m, ms, rfl, rfl⟩
  | passed m _ ih =>
    rcases ih with ⟨before, m', after, rfl, rfl⟩ | rfl
    · exact Or.inl ⟨m :: before, m', after, rfl, rfl⟩
    · exact Or.inr rfl

/-- The handler is called if and only if none of the middlewares that were called answers. -/
theorem Visited.serve_mem_iff (h : Visited handler request ms response visits) :
    .serve handler request response ∈ visits ↔
      ∀ m answer, .intercept m request answer ∈ visits → answer = none := by
  induction h with
  | served response => simp
  | answered m ms response => simp
  | passed m _ ih =>
    rw [List.mem_cons, or_iff_right (by simp), ih]
    refine forall₂_congr fun other answer => ⟨fun h hmem => ?_, fun h hmem =>
      h (List.mem_cons_of_mem _ hmem)⟩
    rcases List.mem_cons.1 hmem with heq | hmem
    · cases heq
      rfl
    · exact h hmem

/-- A pipeline does the same and ends the same whether its calls are written down or not. -/
theorem runPipeline_logged (s : Service ω) (handler : Handler) (request : Request)
    (ms : List Middleware) (w : ω) (log : List Visit) :
    ∃ response w' visits, runPipeline s handler request ms w = (response, w') ∧
      runPipeline s.logged handler request ms (w, log) = (response, w', log ++ visits) ∧
      Visited handler request ms response visits := by
  induction ms generalizing w log with
  | nil => exact ⟨_, _, _, rfl, rfl, .served _⟩
  | cons m ms ih =>
    rcases hcall : s.intercept m request w with ⟨answer, next⟩
    have hlogged : s.logged.intercept m request (w, log) =
        (answer, next, log ++ [.intercept m request answer]) := by
      simp only [Service.logged, hcall]
    rw [runPipeline, runPipeline, hcall, hlogged]
    -- the rest goes on with the world that this middleware left, and with its call on record
    cases answer with
    | some response => exact ⟨response, next, _, rfl, rfl, .answered m ms response⟩
    | none =>
      obtain ⟨response, w', visits, hplain, hlog, hvisited⟩ :=
        ih next (log ++ [.intercept m request none])
      refine ⟨response, w', _, hplain, hlog.trans ?_, .passed m hvisited⟩
      rw [List.append_assoc, List.singleton_append]

end

/-! ## Parameters -/

theorem ascending_of_matchSegments {p : Pattern} {ts : List String} {found params : NameMap String}
    (hfound : found.Ascending) (h : p.matchSegments found ts = some params) :
    params.Ascending := by
  induction p generalizing ts found with
  | nil =>
    cases ts with
    | nil =>
      cases h
      exact hfound
    | cons t ts => cases h
  | cons s p ih =>
    cases ts with
    | nil => cases s <;> cases h
    | cons t ts =>
      cases s with
      | literal text =>
        unfold Pattern.matchSegments at h
        split at h
        · exact ih hfound h
        · cases h
      | param name => exact ih (hfound.insert name t) h

theorem ascending_of_find? {t : Table} {method : Method} {path : String} {route : BoundRoute}
    {params : NameMap String} (h : t.find? method path = some (route, params)) :
    params.Ascending := by
  obtain ⟨e, -, -, hmatch⟩ := Table.exists_entry_of_find? h
  exact ascending_of_matchSegments NameMap.ascending_empty hmatch

/-- A parameter of the path has its value from the path, and others have theirs from the caller. -/
theorem withParams_params (request : Request) {params : NameMap String}
    (hparams : params.Ascending) (name : String) :
    (withParams request params).params.get? name =
      (params.get? name).or (request.params.get? name) :=
  hparams.get?_foldl_insert request.params name

/-! ## Requests -/

namespace Table

/-- What becomes of a request that a table resolves to a route that was bound for a plugin, with
middlewares of the plugin before the route's own. Dispatch answers, and with a record of the calls
it answers the same and leaves the same world. The middlewares of the plugin and then those of the
route are called in their order, each place of the row at most once, up to the first that answers;
it is its answer that is given. If none answers the handler is called last, once, and gives the
answer; if one does the handler is not called. All see the same request: the caller's, except that
the parameters of the path have their values from the path. -/
theorem dispatch_visits {t : Table} {method : Method} {path plugin : String}
    {defaults : List Middleware} {route : Route} {params : NameMap String}
    (hfound : t.find? method path = some (route.bind plugin defaults, params)) (s : Service ω)
    (request : Request) (w : ω) :
    ∃ seen response w' visits,
      t.dispatch s method path request w = (some response, w') ∧
      t.dispatch s.logged method path request (w, []) = (some response, w', visits) ∧
      ((∃ before m after, defaults ++ route.middlewares = before ++ m :: after ∧
          visits = before.map (.intercept · seen none) ++ [.intercept m seen (some response)]) ∨
        visits = (defaults ++ route.middlewares).map (.intercept · seen none) ++
          [.serve route.handler seen response]) ∧
      (.serve route.handler seen response ∈ visits ↔
        ∀ m answer, .intercept m seen answer ∈ visits → answer = none) ∧
      seen.query = request.query ∧ seen.headers = request.headers ∧ seen.body = request.body ∧
      ∀ name, seen.params.get? name = (params.get? name).or (request.params.get? name) := by
  obtain ⟨response, w', visits, hplain, hlogged, hvisited⟩ :=
    runPipeline_logged s route.handler (withParams request params)
      (defaults ++ route.middlewares) w []
  refine ⟨withParams request params, response, w', visits, ?_, ?_, hvisited.ends,
    hvisited.serve_mem_iff, rfl, rfl, rfl,
    withParams_params request (ascending_of_find? hfound)⟩
  · rw [dispatch, hfound]
    exact congrArg (fun result => (some result.1, result.2)) hplain
  · rw [dispatch, hfound]
    exact congrArg (fun result => (some result.1, result.2)) hlogged

/-- A route below an inn for each of its rooms, which answers for the cellar only. -/
def cellarRoute : Route :=
  ⟨.get, "/:room", .scripted "inn" (.echo 200),
    [⟨"inn", "own", .requireParam "room" "cellar", 403, "locked"⟩], false, [], ""⟩

/-- What the inn puts before each of its routes: it greets everybody. -/
def innDefaults : List Middleware :=
  [⟨"inn", "default", .pass, 200, ""⟩]

/-- A guest who calls the room a cellar. -/
def guestRequest : Request :=
  ⟨.ofList [("guest", "yes"), ("room", "cellar")], ∅, ∅, ""⟩

/-- The guest asks for the attic, and what it is called does not help. -/
theorem attic_locked :
    ∃ (t : Table) (seen : Request) (w' : Scripted.World),
      (∅ : Table).bind (cellarRoute.bind "inn" innDefaults) = .ok t ∧
      t.dispatch Scripted.plugins.toService .get "/plugins/inn/attic" guestRequest .empty =
        (some (.text 403 "locked"), w') ∧
      seen.params.get? "room" = some "attic" ∧ seen.params.get? "guest" = some "yes" := by
  obtain ⟨t, ht, hfound, hanswer⟩ : ∃ t,
      (∅ : Table).bind (cellarRoute.bind "inn" innDefaults) = .ok t ∧
      t.find? .get "/plugins/inn/attic" =
        some (cellarRoute.bind "inn" innDefaults, .ofList [("room", "attic")]) ∧
      (t.dispatch Scripted.plugins.toService .get "/plugins/inn/attic" guestRequest .empty).1 =
        some (.text 403 "locked") := ⟨_, rfl, rfl, rfl⟩
  obtain ⟨seen, response, w', visits, hplain, -, -, -, -, -, -, hparams⟩ :=
    dispatch_visits hfound Scripted.plugins.toService guestRequest .empty
  rw [hplain] at hanswer
  obtain rfl : response = .text 403 "locked" := Option.some.inj hanswer
  exact ⟨t, seen, w', ht, hplain, (hparams "room").trans (by decide),
    (hparams "guest").trans (by decide)⟩

end Table

end PluginHost.Route
