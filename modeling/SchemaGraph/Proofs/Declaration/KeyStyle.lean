import SchemaGraph.Proofs.Declaration.Neat
import SchemaGraph.Proofs.Declaration.Scan
import SchemaGraph.Proofs.Schema.Clauses

namespace SchemaGraph.Declaration

open Scan Pattern Text

structure PlainColumn where
  name : Quoted
  type : List Char
  ne   : type ≠ []
  word : ∀ c ∈ type, Text.isWord c

structure Target where
  table : Name
  column : Quoted

def Target.text (target : Target) : List Char :=
  "REFERENCES".toList ++ [' '] ++ target.table.text ++ listText [target.column]

namespace PlainColumn

variable {col : PlainColumn} {target : Target} {raw : List Char} {d : Nat}

def text (col : PlainColumn) : List Char :=
  col.name.text ++ [' '] ++ col.type

-- The keys of a column, at the column and as clauses of the table.

def withReference (col : PlainColumn) (target : Target) : List Char :=
  col.text ++ [' '] ++ target.text

def foreignKeyClause (col : PlainColumn) (target : Target) : List Char :=
  "FOREIGN".toList ++ [' '] ++ "KEY".toList ++ [' '] ++ listText [col.name] ++ [' '] ++ target.text

def withPrimaryKey (col : PlainColumn) : List Char :=
  col.text ++ " PRIMARY KEY".toList

def primaryKeyClause (col : PlainColumn) : List Char :=
  "PRIMARY".toList ++ [' '] ++ "KEY".toList ++ [' '] ++ listText [col.name]

def foreignKey (col : PlainColumn) (target : Target) : ForeignKey :=
  ⟨col.name.string, target.table.string, target.column.string⟩

def plainType (col : PlainColumn) : Identifier.Plain where
  chars := col.type
  ne := col.ne
  plain _ hc := isPlain_of_isWord (col.word _ hc)

-- How the clauses are read.

theorem takes_target {before : Option Char} (target : Target) :
    Clause.references.Takes before target.text []
      (keptColumns (some [target.column]) ++ [(.refTable, target.table.text)]) := by
  have hblanks {before} : (blanks : Pattern Clause.Part).Takes before []
      (listText [target.column] ++ []) [] :=
    .run (by simp) (head_ne_blank (by decide))
  have hlist {before} := @takes_columnList before [] .refColumns [target.column]
  have hcolumns (before) : (opt (blanks ++ Clause.columnList .refColumns)).Takes before
      ([] ++ listText [target.column]) [] (keptColumns (some [target.column]) ++ []) :=
    .opt (.seq hblanks hlist)
  have h := @takes_references_of before _ _ target.table.spelled
    (ends_listText [target.column]) hcolumns
  rwa [target.table.spelled_text] at h

theorem classify_keyText (isPrimaryKey : Bool)
    (h : Text.collapse raw = col.text ++ keyText isPrimaryKey) :
    Clause.classify raw = .column col.name.string (String.ofList col.type) isPrimaryKey none := by
  have hc : Text.collapse raw =
      columnText col.name.columnName col.plainType none (tailText isPrimaryKey none) := by
    simpa [columnText, Quoted.text_columnName, argumentsText, tailText, referenceText, text,
      plainType]
      using h
  rw [classify_columnText _ _ _ (tail_tailText ..) hc, isSome_find?_primaryKey,
    referenceIn_tailText, col.name.string_columnName]
  rfl

theorem classify_withReference (h : Text.collapse raw = col.withReference target) :
    Clause.classify raw = .column col.name.string (String.ofList col.type) false
      (some (col.foreignKey target)) := by
  have hc : Text.collapse raw = columnText col.name.columnName col.plainType none
      ([' '] ++ target.text) := by
    simpa [columnText, Quoted.text_columnName, argumentsText, withReference, text,
      plainType] using h
  have ht : Tail ([' '] ++ target.text) :=
    ⟨by simp, by
      show some 'R' ≠ some '('
      decide⟩
  have hk : (Clause.inlinePrimaryKeyPattern.find? ([' '] ++ target.text)).isSome = false :=
    isSome_find?_keyText false (calm_reference target.table (calm_listText target.column))
      fun c hc => by
      have hc : c = ' ' := by simpa using hc.symm
      exact Text.not_isWord_of_isBlank (hc ▸ by decide)
  obtain ⟨found, hf, hkept⟩ := find?_reference false rfl fun _ => takes_target target
  have hr : referenceIn col.name.string ([' '] ++ target.text) = some (col.foreignKey target) := by
    rw [referenceIn, show [' '] ++ target.text = keyText false ++ ([' '] ++ target.text) from rfl,
      hf, Option.map_some, reference_eq _ target.table (some target.column) hkept]
    rfl
  rw [classify_columnText _ _ _ ht hc, hk, col.name.string_columnName, hr]
  rfl

theorem classify_foreignKeyClause (h : Text.collapse raw = col.foreignKeyClause target) :
    Clause.classify raw = .foreignKey [col.foreignKey target] :=
  classify_foreignKey_of none col.name [] target.table (some [target.column]) rfl
    (fun _ => takes_target target) h

theorem classify_primaryKeyClause (h : Text.collapse raw = col.primaryKeyClause) :
    Clause.classify raw = .primaryKey [col.name.string] :=
  classify_primaryKey none col.name [] h

-- The clauses are words with spaces between them.

theorem neat_text (col : PlainColumn) : Neat col.text :=
  .spaced (.word col.name.solid)
    (.word (.of_firm col.ne fun _ hc => isFirm_of_isWord (col.word _ hc)))

theorem neat_target (target : Target) : Neat target.text :=
  have hword : Neat "REFERENCES".toList := .word (.of_firm (by decide) (by decide))
  (hword.spaced (.word target.table.solid)).append (neat_listText _)

theorem neat_withReference (col : PlainColumn) (target : Target) :
    Neat (col.withReference target) :=
  col.neat_text.spaced (neat_target target)

theorem neat_withPrimaryKey (col : PlainColumn) : Neat col.withPrimaryKey :=
  have hprimary : Neat "PRIMARY".toList := .word (.of_firm (by decide) (by decide))
  have hkey : Neat "KEY".toList := .word (.of_firm (by decide) (by decide))
  col.neat_text.space (.space hprimary hkey)

theorem neat_foreignKeyClause (col : PlainColumn) (target : Target) :
    Neat (col.foreignKeyClause target) :=
  have hforeign : Neat "FOREIGN".toList := .word (.of_firm (by decide) (by decide))
  have hkey : Neat "KEY".toList := .word (.of_firm (by decide) (by decide))
  ((hforeign.spaced hkey).spaced (neat_listText _)).spaced (neat_target target)

theorem neat_primaryKeyClause (col : PlainColumn) : Neat col.primaryKeyClause :=
  have hprimary : Neat "PRIMARY".toList := .word (.of_firm (by decide) (by decide))
  have hkey : Neat "KEY".toList := .word (.of_firm (by decide) (by decide))
  (hprimary.spaced hkey).spaced (neat_listText _)

-- The scan passes over them.

theorem passes_target (target : Target) : Passes d target.text d := by
  have hword : ∀ c ∈ "REFERENCES".toList ++ [' '], isIdle c := by decide
  have hlist : Passes d (listText [target.column] ++ []) d := passes_listText _ .nil
  have h := Passes.idle hword (target.table.passes hlist (by simp [listText, Mode.opens]))
  rwa [List.append_nil, ←List.append_assoc] at h

theorem passes_append {v : List Char} (col : PlainColumn) (h : Passes d v d) :
    Passes d (col.text ++ v) d := by
  have hidle : ∀ c ∈ [' '] ++ col.type, isIdle c :=
    List.forall_mem_append.mpr ⟨by decide, fun c hc => isIdle_of_isWord (col.word c hc)⟩
  have h := col.name.passes (.idle hidle h) (by simp [Mode.opens])
  simpa [text] using h

theorem closed_text (col : PlainColumn) : Closed (· == ',') col.text := by
  simpa using (col.passes_append .nil).closed

theorem closed_withReference (col : PlainColumn) (target : Target) :
    Closed (· == ',') (col.withReference target) := by
  simpa [withReference] using (col.passes_append (.cons (by decide) (passes_target target))).closed

theorem closed_withPrimaryKey (col : PlainColumn) : Closed (· == ',') col.withPrimaryKey := by
  have h := (col.passes_append (.idle (w := " PRIMARY KEY".toList) (by decide) .nil)).closed
  simpa [withPrimaryKey] using h

theorem closed_foreignKeyClause (col : PlainColumn) (target : Target) :
    Closed (· == ',') (col.foreignKeyClause target) := by
  have hwords : ∀ c ∈ "FOREIGN".toList ++ [' '] ++ "KEY".toList ++ [' '], isIdle c := by decide
  have htarget : Passes 0 ([' '] ++ target.text) 0 := .cons (by decide) (passes_target target)
  have h := Passes.idle hwords (passes_listText [col.name] htarget)
  rw [←List.append_assoc, ←List.append_assoc] at h
  exact h.closed

theorem closed_primaryKeyClause (col : PlainColumn) : Closed (· == ',') col.primaryKeyClause := by
  have hwords : ∀ c ∈ "PRIMARY".toList ++ [' '] ++ "KEY".toList ++ [' '], isIdle c := by decide
  have h := Passes.idle hwords (passes_listText [col.name] (@Passes.nil 0))
  rw [List.append_nil] at h
  exact h.closed

variable {l r xs ys : List (List Char)}

-- A key at a column and the same key as a clause of the table, wherever that stands among the
-- others, make the same table but for the order of the keys.
theorem ofBody_keyClause (table : String) (col : PlainColumn) (target : Target)
    (hc : ∀ part ∈ l ++ r, Closed (· == ',') part) (h : xs ++ ys = l ++ col.text :: r) :
    ((∀ part ∈ l ++ r, ∀ key ∈ (Clause.classify part).foreignKeys, key.column ≠ col.name.string) →
      Table.SameButForeignKeyOrder
        (.ofBody table ([','].intercalate (xs ++ col.foreignKeyClause target :: ys)))
        (.ofBody table ([','].intercalate (l ++ col.withReference target :: r)))) ∧
    Table.SameButPrimaryKeyOrder
      (.ofBody table ([','].intercalate (xs ++ col.primaryKeyClause :: ys)))
      (.ofBody table ([','].intercalate (l ++ col.withPrimaryKey :: r))) := by
  have hclauses : Clause.ofParts xs ++ Clause.ofParts ys = Clause.ofParts l ++
      .column col.name.string (String.ofList col.type) false none :: Clause.ofParts r := by
    have ht := classify_keyText false (col.neat_text.collapse_eq.trans (List.append_nil _).symm)
    rw [←Clause.ofParts_append, h, Clause.ofParts_middle col.neat_text.not_blank, ht]
  have hsplit : ∀ part ∈ xs ++ ys, Closed (· == ',') part := by
    rw [h]
    exact forall_mem_middle col.closed_text hc
  constructor
  case left =>
    intro hn
    have hlisted := classify_foreignKeyClause (col.neat_foreignKeyClause target).collapse_eq
    have hinline := classify_withReference (col.neat_withReference target).collapse_eq
    rw [Clause.table_intercalate table (col.neat_foreignKeyClause target)
      (col.closed_foreignKeyClause target) hsplit, hlisted,
      Clause.table_intercalate table (col.neat_withReference target)
      (col.closed_withReference target) hc, hinline]
    refine Table.ofClauses_reference rfl (fun clause hm => ?_) hclauses
    rw [←Clause.ofParts_append] at hm
    have ⟨part, hp, he⟩ := Clause.exists_part_of_mem hm
    exact he ▸ hn part hp
  case right =>
    have hlisted := classify_primaryKeyClause col.neat_primaryKeyClause.collapse_eq
    have hinline := classify_keyText true col.neat_withPrimaryKey.collapse_eq
    rw [Clause.table_intercalate table col.neat_primaryKeyClause col.closed_primaryKeyClause hsplit,
      hlisted, Clause.table_intercalate table col.neat_withPrimaryKey col.closed_withPrimaryKey hc,
      hinline]
    exact Table.ofClauses_primaryKey hclauses

theorem ofBody_keyClause_first :
    Table.SameButForeignKeyOrder (.ofBody "t"
      "FOREIGN KEY (\"a\") REFERENCES \"u\"(\"k\"),\"a\" TEXT,\"a\" INT, ,b INT DEFAULT ','".toList)
        (.ofBody "t" "\"a\" TEXT,\"a\" INT REFERENCES \"u\"(\"k\"), ,b INT DEFAULT ','".toList) ∧
      Table.SameButPrimaryKeyOrder
        (.ofBody "t" "PRIMARY KEY (\"a\"),\"a\" TEXT,\"a\" INT, ,b INT DEFAULT ','".toList)
        (.ofBody "t" "\"a\" TEXT,\"a\" INT PRIMARY KEY, ,b INT DEFAULT ','".toList) := by
  let col : PlainColumn :=
    ⟨⟨⟨"a".toList, by decide, by decide⟩, by decide, .double⟩,
      "INT".toList, by decide, by decide +kernel⟩
  let target : Target :=
    ⟨⟨⟨⟨"u".toList, by decide, by decide⟩, by decide, .double⟩, []⟩,
      ⟨⟨"k".toList, by decide, by decide⟩, by decide, .double⟩⟩
  have hc : ∀ part ∈ ["\"a\" TEXT".toList] ++ [" ".toList, "b INT DEFAULT ','".toList],
      Closed (· == ',') part := by
    simp only [List.singleton_append, List.forall_mem_cons]
    exact ⟨⟨by decide, by decide, by decide⟩, ⟨by decide, by decide, by decide⟩,
      ⟨by decide, by decide, by decide⟩, by simp⟩
  have h := @ofBody_keyClause ["\"a\" TEXT".toList] [" ".toList, "b INT DEFAULT ','".toList] []
    ["\"a\" TEXT".toList, col.text, " ".toList, "b INT DEFAULT ','".toList] "t" col target hc rfl
  exact ⟨h.left (by decide +kernel), h.right⟩

end PlainColumn
end SchemaGraph.Declaration
