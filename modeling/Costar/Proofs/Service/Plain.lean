import Costar.JsonText
import Costar.Proofs.Service.Sending

/-!
# A plain framework

The plainest web framework that there can be: it sends what is JSON and nothing else, and makes
values plain by leaving them as they are.

Main definition: `Service.Framework.plain`.  Main statements: `Service.Framework.lawful_plain` and
`Service.Framework.encodesAll_plain`, which says what the framework sends.
-/

namespace Costar.Service.Framework

/-- A reply that something is not so. -/
def refusal (status : Nat) (detail : String) : Reply :=
  ⟨status, .map [("detail", .text detail)]⟩

/-- Reads the query that a record holds. -/
def readRecord (r : Record) : Except Reply ConnectionQuery :=
  match r.get? "first_person_id", r.get? "second_person_id", (r.get? "filters").getD .null with
  | some (.int first), some (.int second), .null => .ok ⟨first, second, none⟩
  | some (.int first), some (.int second), .map filters => .ok ⟨first, second, some filters⟩
  | _, _, _ => .error (refusal 422 "Unprocessable Entity")

/-- A web framework that leaves values as they are. -/
def plain : Framework where
  route method path :=
    match Endpoint.all.find? fun e => e.method == method && e.path == path with
    | some e => .ok e
    | none => .error (refusal 404 "Not Found")
  readBody
    | .none => .ok none
    | .data v => .ok (some v)
    | .text s =>
      match JsonText.read s with
      | .ok v => .ok (some v)
      | .error _ => .error (refusal 400 "There was an error parsing the body")
  readQuery
    | some (.map r) => readRecord r
    | _ => .error (refusal 422 "Unprocessable Entity")
  readName query :=
    match query.lookup "name" with
    | some name => .ok name
    | none => .error (refusal 422 "Unprocessable Entity")
  encode := some
  keeps _ := true
  room := 255
  send c := if c.value.isJson then some c.value else none
  respond origins request reply :=
    let sent := reply.getD brokenDown
    ⟨sent.status, if request.method = "HEAD" then .text "" else sent.body,
      request.origin.filter (· ∈ origins)⟩

theorem readRecord_of_isIn {q : ConnectionQuery} {r : Record} (h : q.IsIn r) :
    readRecord r = .ok q := by
  unfold readRecord
  rw [h.first, h.second, h.filters]
  rcases q with ⟨first, second, filters⟩
  cases filters <;> rfl

theorem lawful_plain : plain.Lawful where
  routes e := by cases e <;> rfl
  readBody_data _ := rfl
  readQuery_map _ _ h := readRecord_of_isIn h
  encode_null := rfl
  encode_text _ := rfl
  encode_map entries _ := by
    change some (Value.map entries) = Option.map Value.map
      ((entries.filter fun _ => true).mapM fun e => pure e)
    rw [List.filter_eq_self.mpr fun _ _ => rfl, List.mapM_pure, List.map_id']
    rfl
  keeps_own _ _ := rfl
  room_le := by decide
  send_json c _ hjson _ := if_pos hjson
  isJson_send c v h := by
    obtain ⟨hjson, hv⟩ := Option.ite_none_right_eq_some.mp h
    rwa [← Option.some.inj hv]
  respond_reply _ _ _ hmethod := ⟨rfl, if_neg hmethod⟩
  respond_none _ _ hmethod := ⟨rfl, if_neg hmethod⟩

/-- Records of JSON are plain as they are. -/
theorem encodesAll_plain {levels : Nat} {r : Record} (hjson : (Value.map r).isJson = true)
    (hroom : (Value.map r).depth + levels ≤ plain.room) : plain.EncodesAll levels r := by
  intro e he
  rw [Value.isJson, Value.entriesJson_iff] at hjson
  obtain ⟨hwhole, hvalue⟩ := hjson e he
  have hentries : Value.entriesDepth r ≤ plain.room - (levels + 1) := by
    rw [Value.depth] at hroom
    omega
  have hdepth := Value.entriesDepth_le_iff.mp hentries e he
  rw [Value.depth] at hroom
  have hleft : e.2.depth + levels ≤ plain.room := by omega
  exact ⟨hwhole, e.2, rfl, hvalue, hleft, hleft⟩

end Costar.Service.Framework
