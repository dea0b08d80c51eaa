import SchemaGraph.Api.Answer
import SchemaGraph.Proofs.Api.Body
import SchemaGraph.Proofs.Api.Framework

-- That the server of this project does what is relied on in the web framework.
namespace SchemaGraph.Api

def Framework.standIn : Framework Request (Response × List Event) where
  method r  := Text.upperAscii r.method
  path r    := Route.ofAddress r.path
  sql? r    := (Body.sql r.body).toOption
  answer    := Api.answer
  status a  := a.1.status
  value? a  := some a.1.sent

variable {es : List Endpoint} {e : Endpoint} {r : Request} {sql : String}

theorem find?_path (hn : (es.map Endpoint.path).Nodup) (he : e ∈ es) :
    es.find? (·.path == e.path) = some e := by
  induction es
  case nil             => cases he
  case cons first es hi =>
    obtain ⟨hfirst, hn⟩ := List.nodup_cons.mp hn
    rcases List.mem_cons.mp he with rfl | he
    case inl => exact List.find?_cons_of_pos (beq_self_eq_true _)
    case inr =>
      have hne : first.path ≠ e.path := fun h => hfirst (h ▸ List.mem_map_of_mem he)
      rw [List.find?_cons, beq_eq_false_iff_ne.mpr hne]
      exact hi hn he

namespace Framework

theorem answer_of_posts (hn : (es.map Endpoint.path).Nodup) (he : e ∈ es)
    (hm : e.method = "POST") (hr : standIn.Posts r e.path sql) :
    Api.answer es r = handle r.body e.handler ∧ Body.sql r.body = .ok sql := by
  obtain ⟨hmethod, hpath, hsql⟩ := hr
  simp only [standIn] at hmethod hpath hsql
  constructor
  · rw [Api.answer, hpath, find?_path hn he]
    exact if_pos (hmethod.trans hm.symm)
  · cases hb : Body.sql r.body <;> simp_all [Except.toOption]

theorem faithful_standIn : standIn.Faithful where
  returned hn he hm hh hr hs _ := by
    obtain ⟨ha, hb⟩ := answer_of_posts hn he hm hr
    simp [standIn, ha, hh, handle, hb, hs, Response.status, Response.sent, Response.json]
  raised hn he hm hh hr hs     := by
    obtain ⟨ha, hb⟩ := answer_of_posts hn he hm hr
    simp [standIn, ha, hh, handle, hb, hs, Response.status]

theorem upperAscii_post : Text.upperAscii "POST" = "POST" := by
  decide +kernel

theorem posts_standIn {path : String} {body : List Char} (hp : Route.ofAddress path = path)
    (hb : Body.sql body = .ok sql) : standIn.Posts ⟨"POST", path, body⟩ path sql where
  method_eq := upperAscii_post
  path_eq   := hp
  sql?_eq   := congrArg Except.toOption hb

end Framework
end SchemaGraph.Api
