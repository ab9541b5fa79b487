import EntitySchema.Sql.Transport
import EntitySchema.Proofs.Model.Transport
import EntitySchema.Proofs.Sql.Tree

/-!
Search requests and tables read from the documents that they were written as. Values come back in
their canonical form and a column's default that is null in the document as none; trees of conditions,
orders, pages and keys come back as they were.
-/

namespace EntitySchema.Sql

open Json

theorem Operator.decode?_name (o : MemberOrder) (operator : Operator) :
    ((Json.text operator.name).arranged o).text?.bind Operator.ofName? = some operator := by
  cases operator with
  | compare c => cases c <;> rfl
  | member negated => cases negated <;> rfl
  | pattern place negated => cases place <;> cases negated <;> rfl
  | present isSet => cases isSet <;> rfl

namespace Condition

def Ordered (c : Condition) : Prop := ∀ v ∈ c.values, v.Ordered

/-- A condition that came through a document. -/
def carried (c : Condition) : Condition := { c with values := c.values.map Value.carried }

def members (c : Condition) : List (String × Option Json) :=
  [("field", some (.text c.field)), ("operator", some (.text c.operator.name)),
    ("values", some (.array (c.values.map Value.encode)))]

theorem decode?_encode (o : MemberOrder) {c : Condition} (ordered : c.Ordered) :
    decode? (c.encode.arranged o) = some c.carried := by
  have distinct : (c.members.map Prod.fst).Nodup := (by decide : memberNames.Nodup)
  have whole : c.encode = .object (present c.members) := rfl
  let m := met o c.members
  have field : m.required "field" text? = some c.field := required_met o distinct rfl rfl
  have operator : m.required "operator" (fun j => j.text?.bind Operator.ofName?) =
      some c.operator :=
    required_met o distinct rfl (Operator.decode?_name o c.operator)
  have values : m.optional "values" [] (listOf Value.decode?) = some (c.values.map Value.carried) := by
    refine optional_met o distinct rfl ?_
    exact Value.listOf_decode?_encode o ordered
  rw [whole, decode?, members?_present]
  simp only [Option.bind_eq_bind, Option.bind_some]
  rw [field, operator, values]
  rfl

theorem encode_carried {c : Condition} (ordered : c.Ordered) : c.carried.encode = c.encode := by
  rw [encode, encode, carried, Value.map_encode_carried ordered]

end Condition

namespace SearchNode

theorem encodeAll_eq (children : List SearchNode) : encodeAll children = children.map encode :=
  eq_map_of_cons rfl (fun _ _ => rfl) children

/-- The name of a group in documents. -/
def groupName : Connective → String
  | .and => "and"
  | .or => "or"

theorem encode_group (c : Connective) (children : List SearchNode) :
    encode (Tree.group c children) = alternative (groupName c) (.array (children.map encode)) := by
  cases c <;> rw [Tree.group, encode, encodeAll_eq] <;> rfl

theorem decode?_group (c : Connective) (content : Json) :
    decode? (alternative (groupName c) content) = (decodeChildren? content).map (Tree.group c) := by
  cases c <;> rfl

theorem decodeAll?_eq (items : List Json) : decodeAll? items = items.mapM decode? := by
  induction items with
  | nil => rfl
  | cons j rest ih =>
    rw [decodeAll?, ih, List.mapM_cons]
    rfl

theorem decodeChildren?_array (items : List Json) :
    decodeChildren? (.array items) = listOf decode? (.array items) := by
  rw [decodeChildren?, decodeAll?_eq]
  rfl

/-- All conditions of the tree are in order. -/
def Ordered (node : SearchNode) : Prop := ∀ c ∈ node.leaves, c.Ordered

theorem Ordered.child {c : Connective} {children : List SearchNode}
    (ordered : Ordered (Tree.group c children)) {node : SearchNode} (member : node ∈ children) :
    Ordered node := by
  intro condition inside
  refine ordered condition ?_
  rw [Tree.leaves_group]
  exact List.mem_flatMap.mpr ⟨node, member, inside⟩

/-- A tree that came through a document. -/
def carried (node : SearchNode) : SearchNode := node.map Condition.carried

theorem decode?_encode (o : MemberOrder) {node : SearchNode} (ordered : Ordered node) :
    decode? ((encode node).arranged o) = some (carried node) := by
  induction node using Tree.inductionOn with
  | leaf c =>
    have named (j : Json) :
        decode? (alternative "condition" j) = (Condition.decode? j).map .leaf := rfl
    have read := Condition.decode?_encode o (ordered c (.head _))
    rw [encode, arranged_alternative, named, read]
    rfl
  | group c children ih =>
    have read : listOf decode? ((Json.array (children.map encode)).arranged o) =
        some (children.map carried) :=
      listOf_array o fun node member => ih node member (ordered.child member)
    rw [encode_group, arranged_alternative, decode?_group]
    rw [arranged_array] at read ⊢
    rw [decodeChildren?_array, read, carried, Tree.map_group]
    rfl

theorem encode_carried {node : SearchNode} (ordered : Ordered node) :
    encode (carried node) = encode node := by
  induction node using Tree.inductionOn with
  | leaf c =>
    rw [carried, Tree.map_leaf, encode, encode, Condition.encode_carried (ordered c (.head _))]
  | group c children ih =>
    rw [carried, Tree.map_group, encode_group, encode_group, List.map_map]
    congr 2
    exact List.map_congr_left fun node member => ih node member (ordered.child member)

end SearchNode

theorem OrderBy.decode?_encode (o : MemberOrder) (order : OrderBy) :
    decode? (order.encode.arranged o) = some order := by
  let members := [("field", some (Json.text order.field)),
    ("direction", some (.text order.direction.name))]
  have distinct : (members.map Prod.fst).Nodup := (by decide : ["field", "direction"].Nodup)
  have whole : order.encode = .object (present members) := rfl
  have field : (met o members).required "field" text? = some order.field :=
    required_met o distinct rfl rfl
  have direction : (met o members).optional "direction" .ascending
      (fun j => j.plainChoice?.bind Direction.ofName?) = some order.direction := by
    refine optional_met o distinct rfl ?_
    cases order.direction <;> rfl
  rw [whole, decode?, members?_present]
  simp only [Option.bind_eq_bind, Option.bind_some]
  rw [field, direction]
  rfl

namespace SearchGraph

def Ordered (g : SearchGraph) : Prop := ∀ node ∈ g.filter, SearchNode.Ordered node

/-- A request that came through a document. -/
def carried (g : SearchGraph) : SearchGraph := { g with filter := g.filter.map SearchNode.carried }

def members (g : SearchGraph) : List (String × Option Json) :=
  [("filter", g.filter.map SearchNode.encode),
    ("order", if g.order.isEmpty then none else some (.array (g.order.map OrderBy.encode))),
    ("limit", g.limit.map fun n => .natural n.toNat),
    ("offset", g.offset.map fun n => .natural n.toNat)]

theorem encode_eq (g : SearchGraph) : g.encode = .object (present g.members) := by
  obtain ⟨filter, order, limit, offset⟩ := g
  unfold encode members
  dsimp only
  cases filter <;> cases order.isEmpty <;> cases limit <;> cases offset <;> rfl

/-- A limit or an offset, if there is one. -/
theorem decodePage?_encode (o : MemberOrder) (page : Option UInt64) :
    (page.map fun n => Json.natural n.toNat).elim (some none)
      (fun j => nullable decodeUInt64? (j.arranged o)) = some page := by
  cases page with
  | none => rfl
  | some n =>
    have most : n.toNat ≤ maxUInt64 := by
      have bound := n.toNat_lt
      unfold maxUInt64
      omega
    have read : decodeUInt64? ((Json.natural n.toNat).arranged o) = some n := by
      rw [decodeUInt64?, natural?_natural o most most, Option.map_some, UInt64.ofNat_toNat]
    exact nullable_of_some rfl read

theorem decode?_encode (o : MemberOrder) {g : SearchGraph} (ordered : g.Ordered) :
    decode? (g.encode.arranged o) = some g.carried := by
  have distinct : (g.members.map Prod.fst).Nodup :=
    (by decide : ["filter", "order", "limit", "offset"].Nodup)
  let m := met o g.members
  have filter : m.optional "filter" none (nullable SearchNode.decode?) =
      some (g.filter.map SearchNode.carried) := by
    refine optional_met o distinct rfl ?_
    cases filter : g.filter with
    | none => rfl
    | some node => exact nullable_of_some rfl (SearchNode.decode?_encode o (ordered node filter))
  have order : m.optional "order" [] (listOf OrderBy.decode?) = some (g.order.map id) := by
    refine optional_met o distinct rfl ?_
    split
    · next none =>
      rw [List.isEmpty_iff.mp none]
      rfl
    · exact listOf_array o fun order _ => OrderBy.decode?_encode o order
  have limit : m.optional "limit" none (nullable decodeUInt64?) = some g.limit :=
    optional_met o distinct rfl (decodePage?_encode o g.limit)
  have offset : m.optional "offset" none (nullable decodeUInt64?) = some g.offset :=
    optional_met o distinct rfl (decodePage?_encode o g.offset)
  rw [List.map_id] at order
  rw [encode_eq, decode?, members?_present]
  simp only [Option.bind_eq_bind, Option.bind_some]
  rw [filter, order, limit, offset]
  rfl

theorem encode_carried {g : SearchGraph} (ordered : g.Ordered) : g.carried.encode = g.encode := by
  have filter : (g.filter.map SearchNode.carried).map SearchNode.encode =
      g.filter.map SearchNode.encode := by
    rw [Option.map_map]
    exact Option.map_congr fun node inside => SearchNode.encode_carried (ordered node inside)
  rw [encode_eq, encode_eq, members, members, carried]
  dsimp only
  rw [filter]

end SearchGraph

namespace Column

def Ordered (c : Column) : Prop := ∀ v ∈ c.default, v.Ordered

/-- A column that came through a document. -/
def carried (c : Column) : Column := { c with default := Value.carriedDefault c.default }

def withoutNullDefault (c : Column) : Column := { c with default := Value.keptDefault c.default }

def members (c : Column) : List (String × Option Json) :=
  [("name", some (.text c.name)), ("sql_type", some (.text c.sqlType)),
    ("nullable", some (.bool c.nullable)), ("default", c.default.map Value.encode)]

theorem encode_eq (c : Column) : c.encode = .object (present c.members) := by
  unfold encode members
  cases c.default <;> rfl

theorem decode?_encode (o : MemberOrder) {c : Column} (ordered : c.Ordered) :
    decode? (c.encode.arranged o) = some c.carried := by
  have distinct : (c.members.map Prod.fst).Nodup :=
    (by decide : ["name", "sql_type", "nullable", "default"].Nodup)
  let m := met o c.members
  have name : m.required "name" text? = some c.name := required_met o distinct rfl rfl
  have sqlType : m.required "sql_type" text? = some c.sqlType := required_met o distinct rfl rfl
  have default : m.optional "default" none (Json.nullable Value.decode?) =
      some (Value.carriedDefault c.default) :=
    optional_met o distinct rfl (Value.nullable_decode?_encode o ordered)
  have takesNull : m.required "nullable" bool? = some c.nullable := required_met o distinct rfl rfl
  rw [encode_eq, decode?, members?_present]
  simp only [Option.bind_eq_bind, Option.bind_some]
  rw [name, sqlType, default, takesNull]
  rfl

theorem encode_carried {c : Column} (ordered : c.Ordered) :
    c.carried.encode = c.withoutNullDefault.encode := by
  have default := Value.map_encode_carriedDefault ordered
  rw [encode_eq, encode_eq, members, members, carried, withoutNullDefault]
  dsimp only
  rw [default]

end Column

namespace Entity

def Ordered (e : Entity) : Prop := ∀ c ∈ e.columns, c.Ordered

/-- A table that came through a document. -/
def carried (e : Entity) : Entity := { e with columns := e.columns.map Column.carried }

def withoutNullDefaults (e : Entity) : Entity :=
  { e with columns := e.columns.map Column.withoutNullDefault }

def members (e : Entity) : List (String × Option Json) :=
  [("name", some (.text e.name)), ("table_name", some (.text e.tableName)),
    ("columns", some (.array (e.columns.map Column.encode))),
    ("primary_keys", some (encodeNames e.primaryKeys)),
    ("tenant_key", some ((e.tenantKey.map .text).getD .null)),
    ("unique_keys", some (.array (e.uniqueKeys.map encodeNames)))]

theorem decode?_encode (o : MemberOrder) {e : Entity} (ordered : e.Ordered) :
    decode? (e.encode.arranged o) = some e.carried := by
  have distinct : (e.members.map Prod.fst).Nodup := (by decide : memberNames.Nodup)
  have whole : e.encode = .object (present e.members) := rfl
  let m := met o e.members
  have name : m.required "name" text? = some e.name := required_met o distinct rfl rfl
  have tableName : m.required "table_name" text? = some e.tableName :=
    required_met o distinct rfl rfl
  have columns : m.required "columns" (listOf Column.decode?) =
      some (e.columns.map Column.carried) :=
    required_met o distinct rfl
      (listOf_array o fun c member => Column.decode?_encode o (ordered c member))
  have primaryKeys : m.required "primary_keys" (listOf text?) = some e.primaryKeys :=
    required_met o distinct rfl (listOf_texts o e.primaryKeys)
  have tenantKey : decodeTenant? m = some e.tenantKey := by
    refine optional_met o distinct rfl ?_
    cases e.tenantKey <;> rfl
  have uniqueKeys : m.required "unique_keys" (listOf (listOf text?)) = some (e.uniqueKeys.map id) :=
    required_met o distinct rfl (listOf_array o fun names _ => listOf_texts o names)
  rw [List.map_id] at uniqueKeys
  rw [whole, decode?, members?_present]
  simp only [Option.bind_eq_bind, Option.bind_some]
  rw [name, tableName, columns, primaryKeys, tenantKey, uniqueKeys]
  rfl

theorem encode_carried {e : Entity} (ordered : e.Ordered) :
    e.carried.encode = e.withoutNullDefaults.encode := by
  have columns : (e.columns.map Column.carried).map Column.encode =
      (e.columns.map Column.withoutNullDefault).map Column.encode := by
    rw [List.map_map, List.map_map]
    exact List.map_congr_left fun c member => Column.encode_carried (ordered c member)
  rw [encode, encode, carried, withoutNullDefaults, columns]

end Entity

/-- A field whose default is null in a document, with rules whose values change on the way. -/
def price : Field where
  name := "price"
  label := ""
  description := ""
  dataType := .float
  options := ⟨[("unit", "EUR")]⟩
  required := true
  default := some (.float .nan)
  rules := [.max (.uint 5), .oneOf [.decimal .zero]]

end EntitySchema.Sql
