import AzsServer.Core.Number

/-!
# The search tree of the routes: `Trie` of `crow/routing.h`

The URLs of the rules of one HTTP method are kept in a tree.  It grows by one character or one
parameter at a time; afterwards the chains of characters are merged.  A request is searched for
in it from the root, and of the rules that match the one registered first is taken.  No
blueprint is in use, so the indices of blueprints are left out.
-/

namespace AzsServer
namespace Crow

open Core

/-- `ParamType`; its `MAX` stands for no parameter and is a `none` here. -/
inductive ParamType where
  | int
  | uint
  | double
  | string
  | path
deriving DecidableEq

/-- `routing_params`; `δ` is the type of a `double`. -/
structure RoutingParams (δ : Type) where
  intParams : List Int := []
  uintParams : List Nat := []
  doubleParams : List δ := []
  stringParams : List Bytes := []
deriving DecidableEq

/-- A value that stands in a URL. -/
inductive ParamValue (δ : Type) where
  | int (value : Int)
  | uint (value : Nat)
  | double (value : δ)
  | string (value : Bytes)

/-- The `push_back` to the vector of the value's type. -/
def RoutingParams.push {δ : Type} (params : RoutingParams δ) : ParamValue δ → RoutingParams δ
  | .int value => { params with intParams := params.intParams ++ [value] }
  | .uint value => { params with uintParams := params.uintParams ++ [value] }
  | .double value => { params with doubleParams := params.doubleParams ++ [value] }
  | .string value => { params with stringParams := params.stringParams ++ [value] }

/-! ## The numbers of a URL -/

/-- The sign in front of a number, and how many characters it has. -/
def readSign (text : Bytes) : Bool × Nat :=
  if text.head? = some 45 then (true, 1)
  else if text.head? = some 43 then (false, 1)
  else (false, 0)

/-- `strtoll(text, &eptr, 10)` of a text without spaces in front, with the distance of `eptr`;
`none` if nothing is read or `errno` is `ERANGE`. -/
def strtoll (text : Bytes) : Option (Int × Nat) :=
  let (negative, sign) := readSign text
  let digits := (text.drop sign).takeWhile isDecimal
  let magnitude : Int := decimalValue digits
  let value := if negative = true then -magnitude else magnitude
  if digits ≠ [] ∧ -2 ^ 63 ≤ value ∧ value < 2 ^ 63 then some (value, sign + digits.length)
  else none

/-- `strtoull(text, &eptr, 10)` of a text that begins with a digit or a `+`. -/
def strtoull (text : Bytes) : Option (Nat × Nat) :=
  let (_, sign) := readSign text
  let digits := (text.drop sign).takeWhile isDecimal
  if digits ≠ [] ∧ decimalValue digits < 2 ^ 64 then
    some (decimalValue digits, sign + digits.length)
  else none

section Reading

variable {δ : Type} (strtod : Bytes → Option (δ × Nat))

/-- What a parameter takes from the rest of a URL, and how much of it.  `strtod` reads a
`double`, with the distance of `eptr`. -/
def ParamType.read (type : ParamType) (url : Bytes) : Option (ParamValue δ × Nat) :=
  match type, url with
  | _, [] => none
  | .int, c :: _ =>
      if isDecimal c = true ∨ c = 43 ∨ c = 45 then
        (strtoll url).map fun (value, n) => (.int value, n)
      else none
  | .uint, c :: _ =>
      if isDecimal c = true ∨ c = 43 then
        (strtoull url).map fun (value, n) => (.uint value, n)
      else none
  | .double, c :: _ =>
      if isDecimal c = true ∨ c = 43 ∨ c = 45 ∨ c = 46 then
        (strtod url).map fun (value, n) => (.double value, n)
      else none
  | .string, c :: rest =>
      let text := (c :: rest).takeWhile fun c => c ≠ 47
      if text ≠ [] then some (.string text, text.length) else none
  | .path, c :: rest => some (.string (c :: rest), (c :: rest).length)

end Reading

/-! ## The tree -/

/-- `Trie::Node`; the rule with index 0 is none. -/
structure Node where
  ruleIndex : Nat := 0
  key : Bytes := []
  param : Option ParamType := none
  children : List Node := []

namespace Node

/-- `IsSimpleNode` -/
def isSimpleNode (node : Node) : Bool :=
  node.ruleIndex == 0 && node.children.length < 2 && node.param.isNone &&
    node.children.all fun child => child.param.isNone

end Node

/-! ## Adding a rule -/

/-- What one round of the loop of `Trie::add` takes from a URL. -/
inductive Piece where
  | char (c : UInt8)
  | param (type : ParamType)
deriving DecidableEq

/-- `paramTraits` -/
def paramTraits : List (ParamType × Bytes) :=
  [(.int, ascii "<int>"), (.uint, ascii "<uint>"), (.double, ascii "<float>"),
    (.double, ascii "<double>"), (.string, ascii "<str>"), (.string, ascii "<string>"),
    (.path, ascii "<path>")]

/-- The parameter at the beginning of a URL, and the length of its name. -/
def findTraits (url : Bytes) : Option (ParamType × Nat) :=
  (paramTraits.find? fun traits => traits.2.isPrefixOf url).map fun traits =>
    (traits.1, traits.2.length)

/-- The rounds of the loop over a URL; the first `skipped` characters belong to the name of a
parameter.  With a `<` that begins no parameter the loop never ends. -/
def piecesFrom : Nat → Bytes → Option (List Piece)
  | _, [] => some []
  | skipped + 1, _ :: url => piecesFrom skipped url
  | 0, c :: url =>
      if c = 60 then
        match findTraits (c :: url) with
        | some (type, length) => (piecesFrom (length - 1) url).map (Piece.param type :: ·)
        | none => none
      else (piecesFrom 0 url).map (Piece.char c :: ·)

def pieces (url : Bytes) : Option (List Piece) := piecesFrom 0 url

/-- Whether a child is the one that a piece leads to.  The first character of an empty key is
a NUL. -/
def Piece.leadsTo (piece : Piece) (child : Node) : Bool :=
  match piece with
  | .char c => child.key.headD 0 == c
  | .param type => child.param == some type

/-- The node that `add_child_node` makes for a piece. -/
def Piece.newNode : Piece → Node
  | .char c => { key := [c] }
  | .param type => { param := some type }

/-- The way down from a node and the entry of the index; `none` if there is one already. -/
def Node.add (ruleIndex : Nat) (node : Node) : List Piece → Option Node
  | [] => if node.ruleIndex ≠ 0 then none else some { node with ruleIndex := ruleIndex }
  | piece :: way =>
      match node.children.span fun child => !piece.leadsTo child with
      | (before, child :: behind) =>
          (child.add ruleIndex way).map fun child =>
            { node with children := before ++ child :: behind }
      | (before, []) =>
          (piece.newNode.add ruleIndex way).map fun child =>
            { node with children := before ++ [child] }

/-! ## Merging the chains -/

mutual

/-- How many nodes there are, which the merging makes fewer. -/
def Node.count : Node → Nat
  | ⟨_, _, _, children⟩ => countAll children + 1

def countAll : List Node → Nat
  | [] => 0
  | child :: children => child.count + countAll children

end

theorem Node.count_pos (node : Node) : 0 < node.count := by
  obtain ⟨ruleIndex, key, param, children⟩ := node
  rw [Node.count]
  omega

mutual

/-- `optimizeNode` -/
def Node.optimizeNode (node : Node) : Node :=
  match node with
  | ⟨ruleIndex, key, param, []⟩ => ⟨ruleIndex, key, param, []⟩
  | ⟨ruleIndex, key, param, child :: children⟩ =>
      if Node.isSimpleNode ⟨ruleIndex, key, param, child :: children⟩ = true then
        Node.optimizeNode ⟨child.ruleIndex, key ++ child.key, param, child.children⟩
      else ⟨ruleIndex, key, param, optimizeAll (child :: children)⟩
termination_by 2 * node.count
decreasing_by
  · obtain ⟨childIndex, childKey, childParam, grandchildren⟩ := child
    simp only [Node.count, countAll]
    omega
  · simp only [Node.count, countAll]
    omega

def optimizeAll (children : List Node) : List Node :=
  match children with
  | [] => []
  | child :: children => child.optimizeNode :: optimizeAll children
termination_by 2 * countAll children + 1
decreasing_by
  · simp only [countAll]
    omega
  · simp only [countAll]
    have hCount := Node.count_pos child
    omega

end

/-! ## Searching -/

/-- `routing_handle_result` -/
structure RoutingHandleResult (δ : Type) where
  ruleIndex : Nat := 0
  rParams : RoutingParams δ := {}
deriving DecidableEq

/-- `update_found` -/
def RoutingHandleResult.update {δ : Type} (found ret : RoutingHandleResult δ) :
    RoutingHandleResult δ :=
  if ret.ruleIndex ≠ 0 ∧ (found.ruleIndex = 0 ∨ ret.ruleIndex < found.ruleIndex) then ret
  else found

section Searching

variable {δ : Type} (strtod : Bytes → Option (δ × Nat))

/-- Whether the search goes into a child: the parameters with what it takes, and the rest of
the URL. -/
def Node.enter (child : Node) (params : RoutingParams δ) (url : Bytes) :
    Option (RoutingParams δ × Bytes) :=
  match child.param with
  | some type => (type.read strtod url).map fun (value, n) => (params.push value, url.drop n)
  | none =>
      if child.key.isPrefixOf url = true then some (params, url.drop child.key.length) else none

mutual

/-- `Trie::find` from a node on. -/
def Node.find (node : Node) (params : RoutingParams δ) (url : Bytes) : RoutingHandleResult δ :=
  match node with
  | ⟨ruleIndex, _, _, children⟩ =>
      if url = [] then ⟨ruleIndex, params⟩ else findAll children params url {}

/-- The loop over the children. -/
def findAll (children : List Node) (params : RoutingParams δ) (url : Bytes)
    (found : RoutingHandleResult δ) : RoutingHandleResult δ :=
  match children with
  | [] => found
  | child :: children =>
      match child.enter strtod params url with
      | some (params', rest) =>
          findAll children params url (found.update (child.find params' rest))
      | none => findAll children params url found

end

end Searching

/-! ## The tree as a whole -/

/-- Why the rules of a program are not taken. -/
inductive RuleFailure where
  | runtimeError (what : Bytes)
  | endlessLoop
deriving DecidableEq

/-- `Trie` -/
structure Trie where
  head : Node := {}

/-- `Trie::add` -/
def Trie.add (trie : Trie) (url : Bytes) (ruleIndex : Nat) : Except RuleFailure Trie :=
  match pieces url with
  | none => .error .endlessLoop
  | some way =>
      match trie.head.add ruleIndex way with
      | none => .error (.runtimeError (ascii "handler already exists for " ++ url))
      | some head => .ok ⟨head⟩

/-- `Trie::optimize` -/
def Trie.optimize (trie : Trie) : Trie :=
  ⟨{ trie.head with children := optimizeAll trie.head.children }⟩

/-- `Trie::validate` -/
def Trie.validate (trie : Trie) : Except RuleFailure Trie :=
  if trie.head.isSimpleNode = true then .ok trie.optimize
  else .error (.runtimeError (ascii "Internal error: Trie header should be simple!"))

/-- `Trie::is_empty` -/
def Trie.isEmpty (trie : Trie) : Bool := trie.head.children.isEmpty

/-- `Trie::find` -/
def Trie.find {δ : Type} (strtod : Bytes → Option (δ × Nat)) (trie : Trie) (url : Bytes) :
    RoutingHandleResult δ :=
  trie.head.find strtod {} url

end Crow
end AzsServer
