import SchemaGraph.Diagram
import SchemaGraph.Proofs.Text.Blank

-- The lines of a diagram as rows of words, and how they are read.
namespace SchemaGraph.Diagram

def Unspaced (word : String) : Prop :=
  ∀ c ∈ word.toList, c ≠ ' ' ∧ c ≠ '\n'

instance (word : String) : Decidable (Unspaced word) :=
  List.decidableBAll (fun c => c ≠ ' ' ∧ c ≠ '\n') word.toList

theorem Unspaced.append {v w : String} (hv : Unspaced v) (hw : Unspaced w) : Unspaced (v ++ w) := by
  intro c hc
  rw [String.toList_append, List.mem_append] at hc
  exact hc.elim (hv c) (hw c)

structure Plain (name : String) : Prop where
  ne       : name ≠ ""
  unspaced : Unspaced name

instance (name : String) : Decidable (Plain name) :=
  decidable_of_iff (name ≠ "" ∧ Unspaced name) ⟨fun ⟨hn, hu⟩ => ⟨hn, hu⟩,
    fun h => ⟨h.ne, h.unspaced⟩⟩

structure Field where
  name : String
  declaredType : String
  isPrimaryKey : Bool
  isForeignKey : Bool
  deriving DecidableEq, Repr

structure Entity where
  name : String
  fields : List Field
  deriving DecidableEq, Repr

def Field.ofColumn (col : Column) : Field where
  name := col.name
  declaredType := col.declaredType
  isPrimaryKey := col.isPrimaryKey
  isForeignKey := col.isForeignKey

def Entity.ofTable (table : Table) : Entity where
  name := table.name
  fields := table.columns.map .ofColumn

inductive Row
  | opening (name : String)
  | field (f : Field)
  | closing
  | link (l : Link)
  deriving DecidableEq, Repr

namespace Row

def Plain : Row → Prop
  | opening name => Diagram.Plain name
  | field f      => Diagram.Plain f.name ∧ Diagram.Plain f.declaredType
  | closing      => True
  | link l       => Diagram.Plain l.sourceTable ∧ Diagram.Plain l.sourceColumn ∧
    Diagram.Plain l.targetTable ∧ Diagram.Plain l.targetColumn

def margin : List String :=
  ["", "", "", ""]

def keyWords (f : Field) : List String :=
  (if f.isPrimaryKey then ["PK"] else []) ++ (if f.isForeignKey then ["FK"] else [])

-- What stands between the spaces of a line. Each space of the indentation has an empty word before
-- it.
def words : Row → List String
  | opening name => margin ++ [name, "\x7b"]
  | field f      => margin ++ margin ++ keyWords f ++ [f.declaredType, f.name]
  | closing      => margin ++ ["\x7d"]
  | link l       => margin ++
    [l.sourceTable, "||--o\x7b", l.targetTable, ":", "\"" ++ l.sourceColumn, "->",
      l.targetColumn ++ "\""]

def text (row : Row) : List Char :=
  [' '].intercalate (row.words.map String.toList)

theorem toList_columnLine (col : Column) :
    (columnLine col).toList = (field (.ofColumn col)).text ++ ['\n'] := by
  by_cases hp : col.isPrimaryKey <;> by_cases hf : col.isForeignKey <;>
    simp [columnLine, columnText, text, words, margin, keyWords, Field.ofColumn, hp, hf]

theorem toList_openingLine (name : String) :
    ("    " ++ name ++ " \x7b\n").toList = (opening name).text ++ ['\n'] := by
  simp [text, words, margin]

theorem toList_closingLine : "    \x7d\n".toList = closing.text ++ ['\n'] := by
  simp [text, words, margin]

theorem toList_relationshipLine (rel : Relationship) :
    (relationshipLine rel).toList = (link rel.toLink).text ++ ['\n'] := by
  simp [relationshipLine, text, words, margin]

theorem unspaced_margin : ∀ word ∈ margin, Unspaced word := by decide

theorem unspaced_keyWords (f : Field) : ∀ word ∈ keyWords f, Unspaced word := by
  rcases f with ⟨_, _, _ | _, _ | _⟩ <;> simp [keyWords] <;> decide

theorem unspaced_words {row : Row} (h : row.Plain) : ∀ word ∈ row.words, Unspaced word := by
  cases row
  case closing => decide
  case opening name =>
    refine List.forall_mem_append.mpr ⟨unspaced_margin, ?_⟩
    simpa using ⟨h.unspaced, by decide⟩
  case field f =>
    have hk := unspaced_keyWords f
    refine List.forall_mem_append.mpr ⟨List.forall_mem_append.mpr ⟨?_, hk⟩, ?_⟩
    case refine_1 => exact List.forall_mem_append.mpr ⟨unspaced_margin, unspaced_margin⟩
    case refine_2 => simpa using ⟨h.right.unspaced, h.left.unspaced⟩
  case link l =>
    have ⟨hs, hsc, ht, htc⟩ := h
    have hq : Unspaced "\"" := by decide
    refine List.forall_mem_append.mpr ⟨unspaced_margin, ?_⟩
    simpa using ⟨hs.unspaced, by decide, ht.unspaced, by decide, hq.append hsc.unspaced, by decide,
      htc.unspaced.append hq⟩

theorem ne_newline_of_mem_text {row : Row} (h : row.Plain) : ∀ c ∈ row.text, c ≠ '\n' := by
  refine Text.forall_mem_intercalate (by simp) fun part hp c hc => ?_
  have ⟨word, hm, he⟩ := List.mem_map.mp hp
  exact (unspaced_words h word hm c (he ▸ hc)).right

def readField? : List String → Option Field
  | [declaredType, name]             => some ⟨name, declaredType, false, false⟩
  | ["PK", declaredType, name]       => some ⟨name, declaredType, true, false⟩
  | ["FK", declaredType, name]       => some ⟨name, declaredType, false, true⟩
  | ["PK", "FK", declaredType, name] => some ⟨name, declaredType, true, true⟩
  | _                                => none

-- A line that is indented once. Names in quotes have one quote each.
def readOuter? : List String → Option Row
  | ["\x7d"]       => some closing
  | [name, "\x7b"] => some (opening name)
  | [sourceTable, "||--o\x7b", targetTable, ":", sourceColumn, "->", targetColumn] =>
    some (link {
      sourceTable
      sourceColumn := String.ofList (sourceColumn.toList.drop 1)
      targetTable
      targetColumn := String.ofList targetColumn.toList.dropLast })
  | _              => none

def ofWords? : List String → Option Row
  | "" :: "" :: "" :: "" :: "" :: "" :: "" :: "" :: ws => (readField? ws).map field
  | "" :: "" :: "" :: "" :: ws                         => readOuter? ws
  | _                                                  => none

theorem readField?_words (f : Field) :
    readField? (keyWords f ++ [f.declaredType, f.name]) = some f := by
  rcases f with ⟨name, declaredType, _ | _, _ | _⟩ <;> rfl

theorem ofWords?_words {row : Row} (h : row.Plain) : ofWords? row.words = some row := by
  cases row
  case closing => rfl
  case field f => exact congrArg (Option.map field) (readField?_words f)
  case opening name =>
    have hn : name ≠ "" := h.ne
    simp [words, margin, ofWords?, hn, readOuter?]
  case link l =>
    have hn : l.sourceTable ≠ "" := h.left.ne
    simp [words, margin, ofWords?, hn, readOuter?]

def ofText? (text : List Char) : Option Row :=
  ofWords? ((Text.cut (· == ' ') text).map String.ofList)

theorem ofText?_text {row : Row} (h : row.Plain) : ofText? row.text = some row := by
  have hw : row.words ≠ [] := by
    cases row <;> simp [words, margin]
  have hc : Text.cut (· == ' ') row.text = row.words.map String.toList := by
    refine Text.cut_intercalate (by simpa using hw) rfl fun part hp c hc => ?_
    have ⟨word, hm, he⟩ := List.mem_map.mp hp
    have := (unspaced_words h word hm c (he ▸ hc)).left
    simpa using this
  have hl : (row.words.map String.toList).map String.ofList = row.words := by
    simp
  rw [ofText?, hc, hl, ofWords?_words h]

end Row

def Entity.rows (e : Entity) : List Row :=
  .opening e.name :: e.fields.map .field ++ [.closing]

theorem toList_tableLines (table : Table) : (tableLines table).flatMap (·.toList) =
    (Entity.ofTable table).rows.flatMap fun row => row.text ++ ['\n'] := by
  have hc : (table.columns.map columnLine).flatMap (·.toList) =
      ((table.columns.map Field.ofColumn).map Row.field).flatMap fun row => row.text ++ ['\n'] := by
    simp only [List.flatMap_map, Row.toList_columnLine]
  rw [tableLines, Entity.rows, List.flatMap_append, List.flatMap_append, List.flatMap_singleton,
    List.flatMap_singleton, hc, Row.toList_openingLine, Row.toList_closingLine, List.flatMap_append,
    List.flatMap_cons, List.flatMap_singleton]
  rfl

end SchemaGraph.Diagram
