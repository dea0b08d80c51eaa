import SchemaGraph.Proofs.Declaration.Column

namespace SchemaGraph.Declaration

variable {raw : List Char}

namespace Item

def clause : Item → Clause
  | item@(column name type _ isPrimaryKey _) =>
    .column name.string (String.ofList type.chars) isPrimaryKey item.foreignKeys.head?
  | item@(primaryKey ..) => .primaryKey item.keyColumns
  | item@(foreignKey ..) => .foreignKey item.foreignKeys

theorem classify_eq (item : Item) (h : Text.collapse raw = item.text) :
    Clause.classify raw = item.clause := by
  cases item
  case column                              => exact classify_column _ _ _ _ _ h
  case primaryKey constraint? first others => exact classify_primaryKey constraint? first others h
  case foreignKey                          => exact classify_foreignKey _ _ _ _ _ h

theorem primaryKeys_clause (item : Item) : item.clause.primaryKeys = item.keyColumns := by
  cases item
  case column isPrimaryKey _ => cases isPrimaryKey <;> rfl
  case primaryKey            => rfl
  case foreignKey            => rfl

theorem foreignKeys_clause (item : Item) : item.clause.foreignKeys = item.foreignKeys := by
  cases item
  case column reference? => cases reference? <;> rfl
  case primaryKey        => rfl
  case foreignKey        => rfl

end Item

theorem column?_clause (d : Declaration) (item : Item) :
    item.clause.column? d.keyColumns.eraseDups d.foreignKeys = d.column? item := by
  cases item
  case primaryKey  => rfl
  case foreignKey  => rfl
  case column name type args? isPrimaryKey reference? =>
    simp [Item.clause, Clause.column?, column?, List.head?_append, List.head?_filter]
    rfl

theorem ofClauses_eq (d : Declaration) :
    Table.ofClauses d.name.string (d.items.map (·.clause)) = d.table := by
  have hp : (d.items.map (·.clause)).flatMap (·.primaryKeys) = d.keyColumns := by
    simp [List.flatMap_map, keyColumns, Item.primaryKeys_clause]
  have hf : (d.items.map (·.clause)).flatMap (·.foreignKeys) = d.foreignKeys := by
    simp [List.flatMap_map, foreignKeys, Item.foreignKeys_clause]
  simp only [Table.ofClauses, hp, hf, table, List.filterMap_map, Function.comp_def, column?_clause]

end SchemaGraph.Declaration
