import TextToSqlAgent.Library.Walk

/-!
# Syntax trees

The part of sqlglot's trees that validation and execution read: the class of a
node, the text of the leaves that have one, and the named arguments. An
argument that is a list is one entry for each of its members, under one name.
-/

namespace Syntax

inductive Literal
  | string (text : String)
  | integer (value : Nat)
  | number (text : String)
  deriving DecidableEq, Repr

def Literal.text : Literal → String
  | .string text => text
  | .integer value => toString value
  | .number text => text

/-- The node classes the code tests for. `func` and `other` are any it does
not, functions apart, with their `this` where that is a plain text. -/
inductive Kind
  | select | union | intersect | except
  | insert | update | delete | merge | create | drop | alter | truncateTable | grant | copy
  | command
  | lock | into | limit | fetch
  | table | column | alias | tableAlias | cte | subquery | cast | dot
  | literal (value : Literal)
  | identifier (name : String)
  | var (name : String)
  | star
  | null
  | func (key this : String)
  | other (key this : String)
  deriving DecidableEq, Repr

/-- The lower-case class name sqlglot keeps as `key`. -/
def Kind.key : Kind → String
  | .select => "select" | .union => "union" | .intersect => "intersect" | .except => "except"
  | .insert => "insert" | .update => "update" | .delete => "delete" | .merge => "merge"
  | .create => "create" | .drop => "drop" | .alter => "alter"
  | .truncateTable => "truncatetable" | .grant => "grant" | .copy => "copy"
  | .command => "command" | .lock => "lock" | .into => "into" | .limit => "limit"
  | .fetch => "fetch" | .table => "table" | .column => "column" | .alias => "alias"
  | .tableAlias => "tablealias" | .cte => "cte" | .subquery => "subquery"
  | .cast => "cast" | .dot => "dot"
  | .literal _ => "literal" | .identifier _ => "identifier" | .var _ => "var"
  | .star => "star" | .null => "null" | .func key _ => key | .other key _ => key

inductive Node
  | mk (kind : Kind) (args : List (String × Node))

namespace Node

def kind : Node → Kind
  | mk kind _ => kind

def args : Node → List (String × Node)
  | mk _ args => args

def children (n : Node) : List Node := n.args.map Prod.snd

mutual
def size : Node → Nat
  | mk _ args => sizeArgs args + 1
def sizeArgs : List (String × Node) → Nat
  | [] => 0
  | (_, n) :: rest => size n + sizeArgs rest
end

theorem sizeArgs_eq (args : List (String × Node)) :
    sizeArgs args = ((args.map Prod.snd).map size).sum := by
  induction args with
  | nil => rfl
  | cons arg rest ih =>
    obtain ⟨key, n⟩ := arg
    simp [sizeArgs, ih]

/-- The tree below a node, as the walks see it. -/
def tree : Walk.Tree Node where
  children := children
  size := size
  smaller := by
    intro n
    cases n with
    | mk kind args =>
      rw [children, Node.args, ← sizeArgs_eq, size]
      exact Nat.lt_succ_self _

/-- `Expression.walk`: every node, breadth first. -/
def walk (n : Node) : List Node := Walk.walk tree n

/-- `m` occurs in the tree at `n`, its root included. -/
def Occurs (m n : Node) : Prop := Walk.Occurs tree m n

/-- `m` occurs in the tree at `n`, below its root. -/
def Inside (m n : Node) : Prop := Walk.Inside tree m n

theorem mem_walk {m n : Node} : m ∈ n.walk ↔ Occurs m n := Walk.mem_walk tree

theorem occurs_iff {m n : Node} : Occurs m n ↔ m = n ∨ Inside m n := Walk.occurs_iff tree

def findAll (n : Node) (isKind : Kind → Bool) : List Node := n.walk.filter fun m => isKind m.kind

/-- `args.get(key)`. -/
def arg? (n : Node) (key : String) : Option Node :=
  (n.args.find? fun a => a.1 == key).map Prod.snd

/-- The members of the list argument `key`. -/
def argList (n : Node) (key : String) : List Node :=
  (n.args.filter fun a => a.1 == key).map Prod.snd

/-- The text of a leaf that has one. -/
def leafText : Kind → String
  | .identifier name => name
  | .var name => name
  | .literal value => value.text
  | .star => "*"
  | .null => "NULL"
  | _ => ""

/-- `Expression.text`. -/
def text (n : Node) (key : String) : String :=
  match n.arg? key with
  | some m => leafText m.kind
  | none => ""

/-- `Expression.name`, of the classes that do not override it. -/
def ownName (n : Node) : String :=
  match n.kind with
  | .func _ this => if this = "" then n.text "this" else this
  | .other _ this => if this = "" then n.text "this" else this
  | kind => if leafText kind = "" then n.text "this" else leafText kind

mutual
/-- `Expression.name`. -/
def name : Node → String
  | mk .cast args => nameAt "this" args
  | mk .dot args => nameAt "expression" args
  | mk .table args => tableName args
  | mk kind args => ownName (mk kind args)
/-- The name of the argument `key`. -/
def nameAt (key : String) : List (String × Node) → String
  | [] => ""
  | (k, n) :: rest => if k = key then name n else nameAt key rest
/-- A table that is a function has no name. -/
def tableName : List (String × Node) → String
  | [] => ""
  | (k, n) :: rest =>
    if k = "this" then
      match n.kind with
      | .func _ _ => ""
      | .cast => ""
      | _ => name n
    else tableName rest
end

/-- `Expression.alias`: through the `TableAlias`, where the alias is one. -/
def aliasName (n : Node) : String :=
  match n.arg? "alias" with
  | some a => if a.kind = .tableAlias then a.name else n.text "alias"
  | none => ""

def aliasOrName (n : Node) : String := if n.aliasName = "" then n.name else n.aliasName

/-- `set(key, value)`: whatever was under the key is replaced. -/
def setArg (n : Node) (key : String) (value : Node) : Node :=
  mk n.kind ((n.args.filter fun a => a.1 != key) ++ [(key, value)])

/-- The tree of an integer: a literal, under a minus where it is negative. -/
def intNode (value : Int) : Node :=
  let digits := mk (.literal (.integer value.natAbs)) []
  if value < 0 then mk (.other "neg" "") [("this", digits)] else digits

def limitNode (count : Int) : Node := mk .limit [("expression", intNode count)]

/-- `Query.limit(n)`: the statement with its limit or fetch argument replaced. -/
def limit (n : Node) (count : Int) : Node := n.setArg "limit" (limitNode count)

theorem setArg_args (n value : Node) (key : String) :
    (n.setArg key value).args = (n.args.filter fun a => a.1 != key) ++ [(key, value)] := rfl

theorem arg?_setArg_self (n value : Node) (key : String) :
    (n.setArg key value).arg? key = some value := by
  have gone : (n.args.filter fun a => a.1 != key).find? (fun a => a.1 == key) = none := by
    simp [List.find?_eq_none]
  rw [arg?, setArg_args, List.find?_append, gone]
  simp

theorem arg?_setArg_ne (n value : Node) {key other : String} (h : other ≠ key) :
    (n.setArg key value).arg? other = n.arg? other := by
  have kept : (n.args.filter fun a => a.1 != key).find? (fun a => a.1 == other) =
      n.args.find? fun a => a.1 == other := by
    rw [List.find?_filter]
    congr 1
    funext a
    by_cases ha : a.1 = other
    · simp [ha, h]
    · simp [ha]
  rw [arg?, arg?, setArg_args, List.find?_append, kept]
  simp [Ne.symm h]

/-- Below a statement with one argument replaced: the new argument, or what was
there under another name. -/
theorem children_setArg {n value c : Node} {key : String}
    (h : c ∈ (n.setArg key value).children) : c = value ∨ c ∈ n.children := by
  simp only [children, setArg_args, List.map_append, List.mem_append, List.mem_map,
    List.mem_filter] at h
  rcases h with ⟨a, ⟨ha, -⟩, rfl⟩ | ⟨a, ha, rfl⟩
  · exact Or.inr (List.mem_map.mpr ⟨a, ha, rfl⟩)
  · rw [List.mem_singleton.mp ha]
    exact Or.inl rfl

end Node

end Syntax
