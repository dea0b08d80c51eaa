import SchemaGraph.Proofs.Declaration.Column
import SchemaGraph.Proofs.Identifier.Squeezed
import SchemaGraph.Proofs.Schema.Clauses
import SchemaGraph.Proofs.Statement.Declared
import SchemaGraph.Schema.Relationships

namespace SchemaGraph.Declaration

open Pattern Clause

variable {raw w q : List Char} {found : Found} {s : Statement}

-- A column `a` that refers to a table as `q` spells it, at the column and as a clause of the table.

def inlineBody (q : List Char) : List Char :=
  "a INT REFERENCES ".toList ++ q

def clauseBody (q : List Char) : List Char :=
  "a INT".toList ++ ',' :: (" FOREIGN KEY (a) REFERENCES ".toList ++ q)

-- The key that is read. Runs of blanks in the name of the table become single spaces.
def keyTo (table : String) : ForeignKey :=
  ⟨"a", String.ofList (Text.collapse table.toList), defaultRefColumn⟩

def columnName : ColumnName where
  chars := ['a']
  ne := by simp
  style? := none
  fit := by decide
  name_ne := by decide
  not_primaryKey := by decide
  not_foreignKey := by decide
  not_constraint := by decide

theorem columnType_ne : "INT".toList ≠ [] := by
  decide

def columnType : Identifier.Plain where
  chars := "INT".toList
  ne := columnType_ne
  plain := by decide

def spelledReference (table : Identifier.Spelled) : List Char :=
  "REFERENCES".toList ++ [' '] ++ table.text

theorem takes_spelledReference {before : Option Char} (table : Identifier.Spelled) :
    references.Takes before (spelledReference table) [] [(.refTable, table.text)] := by
  have h := @takes_references_of before [] _ table ⟨by simp, by simp⟩ fun _ =>
    .opt_none (fails_of_refuses (by decide))
  rwa [List.append_nil] at h

theorem names_refColumns_eq_nil (h : found.texts.lookup .refColumns = none) :
    found.names .refColumns = [] := by
  rw [Found.names, Progress.group_eq, h]
  rfl

theorem classify_inline (table : Identifier.Spelled)
    (h : Text.collapse raw = columnText columnName columnType none
      ([' '] ++ spelledReference table)) :
    (classify raw).foreignKeys = [⟨"a", String.ofList table.name, defaultRefColumn⟩] := by
  have ht : Tail ([' '] ++ spelledReference table) :=
    ⟨by simp, by
      show some 'R' ≠ some '('
      decide⟩
  obtain ⟨found, hf, hk⟩ := find?_reference false rfl fun _ => takes_spelledReference table
  have hr : referenceIn columnName.string ([' '] ++ spelledReference table) =
      some ⟨"a", String.ofList table.name, defaultRefColumn⟩ := by
    rw [referenceIn, show [' '] ++ spelledReference table =
      keyText false ++ ([' '] ++ spelledReference table) from rfl, hf, Option.map_some,
      refTable_of_spelled table (by rw [hk]; rfl), names_refColumns_eq_nil (by rw [hk]; rfl)]
    rfl
  rw [classify_columnText _ _ _ ht h, hr]
  rfl

theorem classify_clause (table : Identifier.Spelled)
    (h : Text.collapse raw = foreignKeyText none ['a'] (spelledReference table)) :
    (classify raw).foreignKeys = [⟨"a", String.ofList table.name, defaultRefColumn⟩] := by
  obtain ⟨found, hk, hf⟩ := classify_foreignKeyText none (by decide) rfl
    (fun _ => takes_spelledReference table) h
  have hn : found.names .columns = ["a"] := by
    rw [Found.names, Progress.group_eq, hk]
    show (Identifier.splitList ['a']).map String.ofList = ["a"]
    decide
  rw [hf, ofForeignKey, hn, refTable_of_spelled table (by rw [hk]; rfl),
    names_refColumns_eq_nil (by rw [hk]; rfl)]
  rfl

theorem collapse_append_text (hw : Text.squeeze w = w) (hh : w.head?.all (!Text.isBlank ·))
    (table : Identifier.Spelled) : Text.collapse (w ++ table.text) = w ++ table.squeeze.text := by
  have hhead : ∀ c ∈ table.text.head?, ¬ Text.isBlank c :=
    fun c hc => by simp [table.head_text c hc]
  have hlast : ∀ c ∈ (w ++ table.text).getLast?, ¬ Text.isBlank c := by
    rw [List.getLast?_append_of_ne_nil _ table.text_ne]
    exact fun c hc => by simp [table.last_text c hc]
  have hhead' : ∀ c ∈ (w ++ table.text).head?, ¬ Text.isBlank c := by
    cases w
    case nil       => exact hhead
    case cons c cs => simpa using hh
  rw [Text.collapse_eq_squeeze hhead' hlast, Text.squeeze_append hhead, hw, table.text_squeeze]

-- The bodies are split into their clauses when the name is not.

theorem not_blank_append (h : w.all Text.isBlank = false) : (w ++ q).all Text.isBlank = false := by
  rw [List.all_append, h, Bool.false_and]

theorem ofBody_inlineBody (hn : q ≠ []) (hq : Scan.split (· == ',') q = [q]) :
    Clause.ofBody (inlineBody q) = [classify (inlineBody q)] := by
  have hclosed : Scan.Closed (· == ',') "a INT REFERENCES ".toList :=
    ⟨by decide, by decide, by decide⟩
  have hb := @not_blank_append "a INT REFERENCES ".toList q (by decide)
  exact Clause.ofBody_of_split (hclosed.split_append (by decide) hn hq)
    (List.forall_mem_singleton.mpr hb)

theorem ofBody_clauseBody (hn : q ≠ []) (hq : Scan.split (· == ',') q = [q]) :
    Clause.ofBody (clauseBody q) =
      [classify "a INT".toList, classify (" FOREIGN KEY (a) REFERENCES ".toList ++ q)] := by
  have hfirst : Scan.Closed (· == ',') "a INT".toList := ⟨by decide, by decide, by decide⟩
  have hclosed : Scan.Closed (· == ',') " FOREIGN KEY (a) REFERENCES ".toList :=
    ⟨by decide, by decide, by decide⟩
  have hsplit : Scan.split (· == ',') (clauseBody q) =
      ["a INT".toList, " FOREIGN KEY (a) REFERENCES ".toList ++ q] :=
    (hfirst.split_cons (by decide) (by decide) (by decide) (by decide)).trans
      (congrArg _ (hclosed.split_append (by decide) hn hq))
  have hb := @not_blank_append " FOREIGN KEY (a) REFERENCES ".toList q (by decide)
  exact Clause.ofBody_of_split hsplit
    (List.forall_mem_cons.mpr ⟨by decide, List.forall_mem_singleton.mpr hb⟩)

theorem foreignKeys_inlineBody (table : Identifier.Spelled)
    (hq : Scan.split (· == ',') table.text = [table.text]) (name : String) :
    (Table.ofBody name (inlineBody table.text)).foreignKeys =
      [⟨"a", String.ofList table.squeeze.name, defaultRefColumn⟩] := by
  have hc : Text.collapse (inlineBody table.text) =
      columnText columnName columnType none ([' '] ++ spelledReference table.squeeze) :=
    collapse_append_text (by decide) (by decide) table
  have hk := classify_inline table.squeeze hc
  have h : (Table.ofBody name (inlineBody table.text)).foreignKeys =
      (Clause.ofBody (inlineBody table.text)).flatMap (·.foreignKeys) := rfl
  rw [h, ofBody_inlineBody table.text_ne hq, List.flatMap_singleton, hk]

theorem foreignKeys_clauseBody (table : Identifier.Spelled)
    (hq : Scan.split (· == ',') table.text = [table.text]) (name : String) :
    (Table.ofBody name (clauseBody table.text)).foreignKeys =
      [⟨"a", String.ofList table.squeeze.name, defaultRefColumn⟩] := by
  have hc : Text.collapse (" FOREIGN KEY (a) REFERENCES ".toList ++ table.text) =
      foreignKeyText none ['a'] (spelledReference table.squeeze) :=
    (Text.collapse_cons ("FOREIGN KEY (a) REFERENCES ".toList ++ table.text)).trans
      (collapse_append_text (by decide) (by decide) table)
  have hk := classify_clause table.squeeze hc
  have hfirst : (classify "a INT".toList).foreignKeys = [] := by decide +kernel
  have h : (Table.ofBody name (clauseBody table.text)).foreignKeys =
      (Clause.ofBody (clauseBody table.text)).flatMap (·.foreignKeys) := rfl
  rw [h, ofBody_clauseBody table.text_ne hq, List.flatMap_cons, List.flatMap_singleton, hfirst, hk]
  rfl

-- What a header declares under a name, both bodies refer to, but for the blanks in the name. A
-- comma that stands open in the name would end the clause.
theorem foreignKeys_of_declaring {table : String}
    (hq : (Identifier.qualified : Pattern Unit).Matches none q [])
    (hc : Scan.split (· == ',') q = [q])
    (hs : Statement.extract (Statement.declaring q) = [s]) :
    (Table.ofBody table (inlineBody q)).foreignKeys = [keyTo s.name] ∧
      (Table.ofBody table (clauseBody q)).foreignKeys = [keyTo s.name] ∧
      (Text.collapse s.name.toList = s.name.toList → ∀ cat : Catalog, s.name ∈ cat.keys →
        cat.resolves (keyTo s.name)) := by
  obtain ⟨name, rfl⟩ := Identifier.Spelled.matches_iff.mp hq
  have hn : s.name.toList = name.name :=
    (congrArg String.toList (Statement.name_of_extract_declaring name hs)).trans
      String.toList_ofList
  have hk : keyTo s.name = ⟨"a", String.ofList name.squeeze.name, defaultRefColumn⟩ := by
    rw [keyTo, hn, name.collapse_name, name.name_squeeze]
  refine ⟨?inline, ?clause, ?resolves⟩
  case inline   => rw [foreignKeys_inlineBody name hc, hk]
  case clause   => rw [foreignKeys_clauseBody name hc, hk]
  case resolves =>
    intro hs cat hm
    rw [Catalog.resolves, keyTo, hs, String.ofList_toList]
    exact List.contains_iff_mem.mpr hm

theorem foreignKeys_of_declaring_quoted :
    (Identifier.qualified : Pattern Unit).Matches none "shop . \"order item\"".toList [] ∧
      Scan.split (· == ',') "shop . \"order item\"".toList = ["shop . \"order item\"".toList] ∧
      Statement.extract (Statement.declaring "shop . \"order item\"".toList) =
        [⟨"shop.order item", "id INT".toList⟩] ∧
      (Table.ofBody "t" (inlineBody "shop . \"order item\"".toList)).foreignKeys =
        [⟨"a", "shop.order item", "id"⟩] := by
  have hq : (Identifier.qualified : Pattern Unit).Matches none "shop . \"order item\"".toList [] :=
    Identifier.Spelled.matches_iff.mpr ⟨⟨⟨"shop".toList, by decide, none, by decide⟩,
      [⟨Gap.space.toBlanks, Gap.space.toBlanks,
        ⟨"order item".toList, by decide, some .double, by decide⟩⟩]⟩,
      by decide⟩
  have hc : Scan.split (· == ',') "shop . \"order item\"".toList =
      ["shop . \"order item\"".toList] := by
    decide +kernel
  have hs : Statement.extract (Statement.declaring "shop . \"order item\"".toList) =
      [⟨"shop.order item", "id INT".toList⟩] := by
    decide +kernel
  exact ⟨hq, hc, hs, (@foreignKeys_of_declaring _ _ "t" hq hc hs).left.trans (by decide)⟩

theorem foreignKeys_of_declaring_blanks :
    Statement.extract (Statement.declaring "\x60a  b\x60".toList) = [⟨"a  b", "id INT".toList⟩] ∧
      (Table.ofBody "t" (inlineBody "\x60a  b\x60".toList)).foreignKeys = [⟨"a", "a b", "id"⟩] ∧
      (Table.ofBody "t" (clauseBody "\x60a  b\x60".toList)).foreignKeys = [⟨"a", "a b", "id"⟩] ∧
      Statement.extract (Statement.declaring "\x60a,b\x60".toList) = [⟨"a,b", "id INT".toList⟩] ∧
      (Table.ofBody "t" (inlineBody "\x60a,b\x60".toList)).foreignKeys = [] :=
  ⟨by decide +kernel, by decide +kernel, by decide +kernel, by decide +kernel, by decide +kernel⟩

end SchemaGraph.Declaration
