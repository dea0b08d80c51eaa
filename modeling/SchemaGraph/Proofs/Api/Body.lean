import SchemaGraph.Api.Answer
import SchemaGraph.Json.Printer
import SchemaGraph.Proofs.Json.Text
import SchemaGraph.Proofs.Text.Utf8

-- The body that hands a text over.
namespace SchemaGraph.Api.Body

def fieldsOf (sql : String) : List (String × Json) :=
  [("sql", .str sql)]

def ofSql (sql : String) : List Char :=
  (Json.obj (fieldsOf sql)).printCompact.toList

theorem ofSql_eq (sql : String) :
    ofSql sql = '\x7b' :: ((Json.Style.compact.quote "sql").toList
      ++ ':' :: ((Json.Style.compact.quote sql).toList ++ ['\x7d'])) := by
  simp [ofSql, fieldsOf, Json.printCompact, Json.printAt, Json.printFields, Json.Style.field,
    Json.Style.block, Json.Style.compact]

theorem parse_ofSql (sql : String) : Json.parse limits (ofSql sql) = .ok (.obj (fieldsOf sql)) := by
  have ⟨n, hn⟩ : ∃ n, (ofSql sql).length = n + 2 := ofSql_eq sql ▸ ⟨_, rfl⟩
  have hs : Json.Reader.skipSpace (ofSql sql) = ofSql sql := by
    rw [ofSql_eq, Json.skipSpace_of_not_isSpace rfl]
  have hv : Json.Reader.value limits (n + 3) 0 (ofSql sql) = .ok (.obj (fieldsOf sql), []) :=
    ofSql_eq sql ▸ Json.value_field (by decide) n "sql" sql
  rw [Json.parse, hs, hn, hv]
  rfl

theorem text?_ofSql (sql : String) : text? (ofSql sql) = some (ofSql sql) := by
  have hh : (ofSql sql).head? ≠ some '\uFEFF' := ofSql_eq sql ▸ (by simp)
  have ⟨bytes, hb⟩ : ∃ bytes, (String.ofList (ofSql sql)).toUTF8.toList =
      0x7b :: 0x22 :: bytes := by
    rw [Text.Utf8.toList_toUTF8, String.toList_ofList, ofSql_eq]
    exact ⟨_, rfl⟩
  rw [text?, if_neg hh, hb]
  rfl

theorem value_ofSql (sql : String) : value (ofSql sql) = .ok (.obj (fieldsOf sql)) := by
  have hn : ¬ (ofSql sql).isEmpty := ofSql_eq sql ▸ (by simp)
  rw [value, if_neg hn, text?_ofSql]
  simp only [parse_ofSql]

theorem sql_ofSql (s : String) : sql (ofSql s) = .ok s := by
  rw [sql, value_ofSql]
  rfl

end SchemaGraph.Api.Body
