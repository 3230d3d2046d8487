import Costar.Proofs.Search.Found
import Costar.Proofs.Service.Plain
import Costar.Service.Endpoints

/-!
# The service and the search

A request for a connection is answered with what comes of the search that it asks for.  The service
sorts the filters before it searches, while the search sorts those that it is given; they come to
the same, so the store sees the same and the same failure wins.  What comes of the search is then
sent: the steps if there are any, or else the name and the wording of a failure that is reported.
What cannot be sent breaks down the handling of the request.  Steps can be sent when the properties
of their parts can.  The wording of a failure repeats what was asked for, and it cannot be sent if
half of a pair of code units stands alone in it.

All of this holds over any lawful web framework.

Main results:

- Theorem `Service.findConnection_eq`: searching with sorted filters comes to the same.
- Structure `Service.Conveys`: responses that say what has come of a search.
- Theorem `Service.serve_find_path`: what a request for a connection is answered with.
- Theorem `Service.conveys_iff_wording_whole`: the response says what has come of the search exactly
  when no failure is to be reported in whose wording half of a pair stands alone.
-/

namespace Costar.Service

/-! ## Sorted filters -/

/-- Filters may be sorted before a request is built of them. -/
theorem find_of_selection {s : Search} {first second : Int} {filters : Value}
    {selection : Selection} (h : Selection.ofValue filters = .ok selection) :
    s.find (.int first) (.int second) (.given filters) =
      s.find (.int first) (.int second) (.sorted selection) := by
  have hselection : (Filters.given filters).selection = (Filters.sorted selection).selection := h
  unfold Search.find PathRequest.build
  rw [hselection]

/-- Filters that cannot be sorted fail the search before anything is asked of the store. -/
theorem find_of_selection_error {s : Search} {first second : Int} {filters : Value} {f : Failure}
    (h : Selection.ofValue filters = .error f) :
    s.find (.int first) (.int second) (.given filters) = .fail f := by
  have hselection : (Filters.given filters).selection = .error f := h
  unfold Search.find PathRequest.build
  rw [hselection]
  rfl

/-- Searching with sorted filters comes to the same as sorting them in the search. -/
theorem findConnection_eq (F : Framework) (settings : Settings) (moment : Moment) (db : Database)
    (q : ConnectionQuery) :
    findConnection F settings moment db q = reportConnection F moment.elapsed
      ((search settings moment db).find (.int q.first) (.int q.second) (.given q.given)) := by
  unfold findConnection
  cases h : Selection.ofValue q.given with
  | error f =>
      rw [find_of_selection_error h]
      rfl
  | ok selection =>
      rw [find_of_selection h]

/-! ## What a response says -/

/-- The statuses of the failures that are reported, by the names under which they are. -/
def statuses : List (String × Nat) :=
  [("UnknownField", 400), ("InvalidFilterOperand", 400), ("EmptyPath", 400),
    ("TraversalFailed", 502), ("LookupFailed", 502), ("MalformedSegment", 500),
    ("UnresolvedType", 500)]

theorem lookup_statuses {f : Failure} {name : String} (h : f.reportedAs? = some name) :
    statuses.lookup name = some (statusOf f) := by
  cases f <;> cases h <;> rfl

/-- Whether a response says what has come of a search: of a connection, all steps as plain values,
how many there are and the time that it took; of a failure that is reported, its name and its
wording, with the status of its kind. -/
structure Conveys (F : Framework) (elapsed : Binary64) (response : Response)
    (result : Except Failure Connection) : Prop where
  found : ∀ c, result = .ok c → response.status = 200 ∧ ∃ records triples,
    List.Forall₂ (fun s r => Step.describe s = .ok r) c.steps records ∧
      List.Forall₂ (fun r v => F.encode (.map r) = some v) records triples ∧
      response.body = .map [("results", .list triples), ("total_found", .int c.triples.length),
        ("query_time_ms", .float elapsed)]
  reported : ∀ f name, result = .error f → f.reportedAs? = some name →
    statuses.lookup name = some response.status ∧ response.body =
      .map [("error", .text name), ("details", .map [("message", .text f.message)])]

/-- Whether what is served carries what the handling of a request has come to. -/
structure Carries (served : Served) (handling : Handling) : Prop where
  events : served.events = handling.events
  status : served.response.status = (handling.reply.getD brokenDown).status
  body : served.response.body = (handling.reply.getD brokenDown).body

/-! ## Reports -/

variable {F : Framework} {elapsed : Binary64} {run : Run Connection} {served : Served}
  {f : Failure} {name : String}

theorem events_failed (F : Framework) (f : Failure) (events : List Event) :
    (failed F f events).events = events := by
  unfold failed
  split <;> rfl

/-- The store sees of a request what it sees of the search. -/
theorem events_reportConnection (F : Framework) (elapsed : Binary64) (run : Run Connection) :
    (reportConnection F elapsed run).events = run.events := by
  unfold reportConnection
  dsimp only
  split
  · exact events_failed _ _ _
  · split <;> rfl

theorem reportConnection_of_error (h : run.result = .error f) (hname : f.reportedAs? = some name) :
    reportConnection F elapsed run =
      replyWith F (statusOf f) (.failure name f.message) run.events := by
  unfold reportConnection
  rw [h]
  change failed F f run.events = _
  unfold failed
  rw [hname]

/-- A connection is reported by the plain values of its steps, if they have one. -/
theorem reportConnection_of_encoded {c : Connection} {records : List Record} {triples : List Value}
    (h : run.result = .ok c) (hrecords : c.steps.mapM Step.describe = .ok records)
    (htriples : encodeRecords F records = some triples) :
    reportConnection F elapsed run = replyWith F 200 (.connection triples elapsed) run.events := by
  have hdescribed : (do (← run.result).steps.mapM Step.describe) = .ok records := by
    rw [h]
    exact hrecords
  unfold reportConnection
  simp only [hdescribed, htriples]

/-- A reply whose content is JSON is sent with that content. -/
theorem replyWith_of_isJson (hF : F.Lawful) (status : Nat) {content : Content}
    (events : List Event) (hfits : content.Fits) (hjson : content.value.isJson = true)
    (hdepth : content.value.depth ≤ F.room) :
    replyWith F status content events = ⟨some ⟨status, content.value⟩, events⟩ := by
  unfold replyWith
  rw [hF.send_json content hfits hjson hdepth]
  rfl

/-- What is received of a reply is JSON, also where the handling of the request broke down. -/
theorem isJson_replyWith (hF : F.Lawful) (status : Nat) (content : Content) (events : List Event) :
    (((replyWith F status content events).reply.getD brokenDown).body).isJson = true := by
  unfold replyWith
  cases h : F.send content with
  | none => rfl
  | some v => exact hF.isJson_send content v h

/-- The steps of a connection can be sent if the properties of what they consist of can. -/
theorem exists_triples (hF : F.Lawful) {steps : List Step} {records : List Record}
    (hrecords : steps.mapM Step.describe = .ok records) (h : ∀ s ∈ steps, s.Sendable F) :
    ∃ triples, encodeRecords F records = some triples ∧
      List.Forall₂ (fun r v => F.encode (.map r) = some v) records triples ∧
      ∀ v ∈ triples, (v.isJson = true ∧ v.depth + 2 ≤ F.room) ∧ Content.IsTriple v := by
  apply Framework.exists_mapM
  intro r hr
  rcases (Failure.mem_of_mapM_eq_ok hrecords).mp hr with ⟨s, hs, hdescribe⟩
  obtain ⟨v, hv, htriple⟩ := (h s hs).exists_triple hF hdescribe
  exact ⟨v, hv.encode, ⟨hv.isJson, hv.room_encoded⟩, htriple⟩

/-- The content of a reply that tells the steps of a connection is JSON if the steps are. -/
theorem connection_isJson (hF : F.Lawful) {triples : List Value} {elapsed : Binary64}
    (helapsed : elapsed.isFinite = true)
    (h : ∀ v ∈ triples, v.isJson = true ∧ v.depth + 2 ≤ F.room) :
    (Content.connection triples elapsed).value.isJson = true ∧
      (Content.connection triples elapsed).value.depth ≤ F.room := by
  have hroom := hF.room_le
  have hdepth : Value.itemsDepth triples ≤ F.room - 2 :=
    Value.itemsDepth_le_iff.mpr fun v hv => Nat.le_sub_of_add_le (h v hv).2
  constructor
  · have hjson := Value.areJson_iff.mpr fun v hv => (h v hv).1
    simp [Content.value, Value.isJson, Value.entriesJson, Text.isWhole, hjson, helapsed]
  · simp only [Content.value, Value.depth, Value.entriesDepth]
    omega

/-- The content of a reply that tells a failure is JSON exactly when its wording is whole. -/
theorem failure_isJson (name : String) (message : Text) :
    (Content.failure name message).value.isJson = message.isWhole := by
  simp [Content.value, Value.isJson, Value.entriesJson, Text.isWhole]

/-! ## Requests for connections -/

/-- The request for a connection at a position is answered with what comes of the search that it
asks for, whatever came before it. -/
theorem serve_find_path (hF : F.Lawful) (settings : Settings)
    {requests : List (Moment × HttpRequest)} {i : Nat} {moment : Moment} {request : HttpRequest}
    {db : Database} {q : ConnectionQuery} (hrequest : requests[i]? = some (moment, request))
    (hdb : moment.database = some db) (hmethod : request.method = "POST")
    (hpath : request.path = "/find_path") (hquery : F.Reads request.body q) :
    ∃ served, (serve F settings requests)[i]? = some served ∧
      Carries served (reportConnection F moment.elapsed
        ((search settings moment db).find (.int q.first) (.int q.second) (.given q.given))) := by
  obtain ⟨v, hbody, hq⟩ := hquery
  have hroute : F.route request.method request.path = .ok .connection := by
    rw [hmethod, hpath]
    exact hF.routes .connection
  have hhandle : handle F settings moment request = findConnection F settings moment db q := by
    unfold handle
    rw [hroute]
    change handleConnection F settings moment request = _
    unfold handleConnection
    rw [hbody, hdb]
    simp only [hq]
  have hhead : request.method ≠ "HEAD" := by
    rw [hmethod]
    decide
  refine ⟨serveOne F settings moment request, ?_, ?_⟩
  · unfold serve
    rw [List.getElem?_map, hrequest]
    rfl
  · rw [← findConnection_eq, ← hhandle]
    unfold serveOne
    cases handle F settings moment request with
    | mk reply events =>
        cases reply with
        | none =>
            obtain ⟨hstatus, hbody⟩ := hF.respond_none settings.origins request hhead
            exact ⟨rfl, hstatus, hbody⟩
        | some reply =>
            obtain ⟨hstatus, hbody⟩ := hF.respond_reply settings.origins request reply hhead
            exact ⟨rfl, hstatus, hbody⟩

/-- What is conveyed of a failure is worded without half of a pair. -/
theorem isWhole_of_conveys (hF : F.Lawful)
    (hcarries : Carries served (reportConnection F elapsed run))
    (h : Conveys F elapsed served.response run.result) (hf : run.result = .error f)
    (hname : f.reportedAs? = some name) : f.message.isWhole = true := by
  have hjson : served.response.body.isJson = true := by
    rw [hcarries.body, reportConnection_of_error hf hname]
    exact isJson_replyWith hF _ _ _
  rw [(h.reported f name hf hname).2] at hjson
  exact (failure_isJson name f.message).symm.trans hjson

/-- What has come of a search is conveyed if it can be sent. -/
theorem conveys_of_sendable (hF : F.Lawful) (helapsed : elapsed.isFinite = true)
    (hcarries : Carries served (reportConnection F elapsed run))
    (htold : ∀ c, run.result = .ok c → c.Told)
    (hsendable : ∀ c, run.result = .ok c → c.Sendable F)
    (hwording : ∀ f name, run.result = .error f → f.reportedAs? = some name →
      f.message.isWhole = true) : Conveys F elapsed served.response run.result := by
  have hroom := hF.room_le
  constructor
  case found =>
    intro c hc
    rcases (htold c hc).exists_describe with ⟨records, hrecords⟩
    obtain ⟨triples, htriples, hencoded, hall⟩ := exists_triples hF hrecords (hsendable c hc)
    obtain ⟨hjson, hdepth⟩ := connection_isJson hF helapsed fun v hv => (hall v hv).1
    have hdescribed := Failure.mapM_eq_ok.mp hrecords
    have hlength : triples.length = c.triples.length := by
      rw [← hencoded.length_eq, ← hdescribed.length_eq]
      exact List.length_map _
    have hfits : (Content.connection triples elapsed).Fits := fun v hv => (hall v hv).2
    rw [hcarries.status, hcarries.body, reportConnection_of_encoded hc hrecords htriples,
      replyWith_of_isJson hF 200 run.events hfits hjson hdepth]
    refine ⟨rfl, records, triples, hdescribed, hencoded, ?_⟩
    rw [← hlength]
    rfl
  case reported =>
    intro f name hf hname
    have hjson := (failure_isJson name f.message).trans (hwording f name hf hname)
    have hfits : (Content.failure name f.message).Fits := trivial
    have hdepth : (Content.failure name f.message).value.depth ≤ F.room := by
      simp only [Content.value, Value.depth, Value.entriesDepth]
      omega
    rw [hcarries.status, hcarries.body, reportConnection_of_error hf hname,
      replyWith_of_isJson hF (statusOf f) run.events hfits hjson hdepth]
    exact ⟨lookup_statuses hname, rfl⟩

/-- At any position among requests, and whatever the store is like then, a request for a connection
is answered, and the store sees of it exactly what it sees of the search for it.  If the properties
of what is found are plain as JSON, the response says what has come of the search exactly when no
failure is to be reported in whose wording half of a pair stands alone. -/
theorem conveys_iff_wording_whole (hF : F.Lawful) (settings : Settings)
    {requests : List (Moment × HttpRequest)} {i : Nat} {moment : Moment} {request : HttpRequest}
    {db : Database} {q : ConnectionQuery} (hrequest : requests[i]? = some (moment, request))
    (hdb : moment.database = some db) (hmethod : request.method = "POST")
    (hpath : request.path = "/find_path") (hquery : F.Reads request.body q) :
    let core : Search := ⟨db, settings.access, settings.concurrency, moment.timing⟩
    let filters : Value := (q.filters.map .map).getD .null
    let run := core.find (.int q.first) (.int q.second) (.given filters)
    ∃ served, (serve F settings requests)[i]? = some served ∧ served.events = run.events ∧
      ((∀ c, run.result = .ok c → c.Sendable F) →
        (Conveys F moment.elapsed served.response run.result ↔
          ∀ f name, run.result = .error f → f.reportedAs? = some name →
            f.message.isWhole = true)) := by
  intro core filters run
  obtain ⟨served, hserved, hcarries⟩ :=
    serve_find_path hF settings hrequest hdb hmethod hpath hquery
  refine ⟨served, hserved, hcarries.events.trans (events_reportConnection F _ run), ?_⟩
  intro hsendable
  have htold : ∀ c, run.result = .ok c → c.Told :=
    fun c hc => (Search.settled_of_find hc).2.told
  constructor
  · intro h f name hf hname
    exact isWhole_of_conveys hF hcarries h hf hname
  · exact conveys_of_sendable hF moment.isFinite_elapsed hcarries htold hsendable

/-- A moment at which a millisecond passes. -/
def briefly (database : Option Database) : Moment where
  database := database
  timing := .inOrder
  elapsed := ⟨0x3FF0000000000000⟩
  isFinite_elapsed := by decide

/-- A request for the connection between two people, with filters if there are any. -/
def connectionRequest (q : ConnectionQuery) : HttpRequest where
  method := "POST"
  path := "/find_path"
  body := .data (.map [("first_person_id", .int q.first), ("second_person_id", .int q.second),
    ("filters", q.given)])

theorem reads_connectionRequest {F : Framework} (hF : F.Lawful) {q : ConnectionQuery}
    (hwhole : ∀ filters, q.filters = some filters → ∀ e ∈ filters, e.1.isWhole = true) :
    F.Reads (connectionRequest q).body q :=
  ⟨_, hF.readBody_data _, hF.readQuery_map _ q ⟨rfl, rfl, rfl, hwhole⟩⟩

/-- The request for the connection between the two people of `Search.coStars` is answered with its
steps, after one to which the service was not yet connected. -/
theorem conveys_coStars :
    let moment := briefly (some Search.coStars.database)
    let request := connectionRequest ⟨1, 2, none⟩
    let run := (search Settings.default moment Search.coStars.database).find (.int 1) (.int 2)
      (.given .null)
    ∃ served c, (serve .plain Settings.default [(briefly none, request), (moment, request)])[1]? =
        some served ∧ served.events = run.events ∧ run.result = .ok c ∧ c.triples.length = 2 ∧
      Conveys .plain moment.elapsed served.response run.result := by
  intro moment request run
  have hreads : Framework.plain.Reads request.body ⟨1, 2, none⟩ :=
    reads_connectionRequest Framework.lawful_plain nofun
  obtain ⟨c, hc, hlength, hsteps⟩ : ∃ c, run.result = .ok c ∧ c.triples.length = 2 ∧
      c.steps = [⟨[("person_id", .int 1)], .cast [("character", .text "Anna")],
        .movie [("movie_id", .int 7)]⟩, ⟨[("person_id", .int 2)],
          .crew [("department", .text "Sound")], .movie [("movie_id", .int 7)]⟩] :=
    ⟨_, rfl, rfl, rfl⟩
  have hsendable : ∀ d, run.result = .ok d → d.Sendable .plain := by
    intro d hd s hs
    rw [hc] at hd
    cases hd
    rw [hsteps] at hs
    rcases List.mem_pair.mp hs with rfl | rfl
    all_goals
      exact ⟨Framework.encodesAll_plain rfl (by decide), Framework.encodesAll_plain rfl (by decide),
        Framework.encodesAll_plain rfl (by decide), nofun⟩
  have hwording : ∀ f name, run.result = .error f → f.reportedAs? = some name →
      f.message.isWhole = true := by
    intro f name hf
    rw [hc] at hf
    cases hf
  have hrequest : [(briefly none, request), (moment, request)][1]? = some (moment, request) := rfl
  obtain ⟨served, hserved, hevents, hconveys⟩ :=
    conveys_iff_wording_whole Framework.lawful_plain Settings.default hrequest rfl rfl rfl hreads
  exact ⟨served, c, hserved, hevents, hc, hlength, (hconveys hsendable).mpr hwording⟩

/-- A field in whose name half of a pair of code units stands alone. -/
def halfName : Text :=
  .ofLetters [.half ⟨0xD800, by decide, by decide⟩]

/-- A filter for a field with half of a pair in its name fails the search, and that is to be
reported; but the handling of the request breaks down. -/
theorem unknown_field_not_conveyed :
    let db := Store.database {}
    let filters : Record := [("person", .map [(halfName, .int 1)])]
    let run := (search Settings.default (briefly (some db)) db).find (.int 1) (.int 2)
      (.given (.map filters))
    ∃ served f, (serve .plain Settings.default
        [(briefly (some db), connectionRequest ⟨1, 2, some filters⟩)])[0]? = some served ∧
      run.result = .error f ∧ f.reportedAs? = some "UnknownField" ∧
      served.response.status = 500 ∧
      ¬ Conveys .plain (briefly (some db)).elapsed served.response run.result := by
  intro db filters run
  obtain ⟨f, hf, hname, hmessage⟩ : ∃ f, run.result = .error f ∧
      f.reportedAs? = some "UnknownField" ∧ f.message.isWhole = false := by
    refine ⟨_, rfl, rfl, ?_⟩
    have hhalf : halfName.isWhole = false := by decide
    simp [Failure.message, FieldProblem.message, Text.isWhole_append, hhalf]
  have hreads : Framework.plain.Reads (connectionRequest ⟨1, 2, some filters⟩).body
      ⟨1, 2, some filters⟩ := by
    apply reads_connectionRequest Framework.lawful_plain
    intro given hgiven e he
    cases hgiven
    obtain rfl := List.mem_singleton.mp he
    rfl
  obtain ⟨served, hserved, hcarries⟩ : ∃ served, (serve .plain Settings.default
        [(briefly (some db), connectionRequest ⟨1, 2, some filters⟩)])[0]? = some served ∧
      Carries served (reportConnection .plain (briefly (some db)).elapsed run) :=
    serve_find_path Framework.lawful_plain Settings.default rfl rfl rfl rfl hreads
  have hstatus : served.response.status = 500 := by
    have hunsent : Framework.plain.send (.failure "UnknownField" f.message) = none := by
      apply if_neg
      rw [failure_isJson, hmessage]
      decide
    rw [hcarries.status, reportConnection_of_error hf hname, replyWith, hunsent]
    rfl
  refine ⟨served, f, hserved, hf, hname, hstatus, ?_⟩
  intro h
  have hwhole := isWhole_of_conveys Framework.lawful_plain hcarries h hf hname
  rw [hmessage] at hwhole
  cases hwhole

end Costar.Service
