import AzsServer.Crow.Trie

/-!
# The rules of a search tree

A tree stands for a list of rules, each the pieces of a URL and an index.  Adding a rule adds
it to the list, merging the chains leaves the list as it is, and a search finds the least index
among the rules of the list that the URL matches.
-/

namespace AzsServer
namespace Crow

open Core

/-! ## What a rule matches -/

section Matching

variable {δ : Type} (strtod : Bytes → Option (δ × Nat))

/-- The parameters of a URL that matches the pieces of a rule, behind those that are known. -/
def matchPieces : List Piece → RoutingParams δ → Bytes → Option (RoutingParams δ)
  | [], params, [] => some params
  | [], _, _ :: _ => none
  | .char _ :: _, _, [] => none
  | .char c :: way, params, d :: url => if c = d then matchPieces way params url else none
  | .param type :: way, params, url =>
      (type.read strtod url).bind fun (value, n) =>
        matchPieces way (params.push value) (url.drop n)

@[simp] theorem ParamType.read_nil (type : ParamType) : type.read strtod [] = none := by
  cases type <;> rfl

/-- A run of characters is compared with the beginning of the URL. -/
theorem matchPieces_chars (key : Bytes) (way : List Piece) (params : RoutingParams δ)
    (url : Bytes) :
    matchPieces strtod (key.map Piece.char ++ way) params url =
      if key.isPrefixOf url = true then matchPieces strtod way params (url.drop key.length)
      else none := by
  induction key generalizing url with
  | nil => simp
  | cons c key ih =>
      cases url with
      | nil => simp [matchPieces]
      | cons d url =>
          by_cases hEq : c = d
          · simp [matchPieces, hEq, ih]
          · simp [matchPieces, hEq]

/-- A URL of characters alone matches itself. -/
theorem matchPieces_plain (key : Bytes) (params : RoutingParams δ) (url : Bytes) :
    matchPieces strtod (key.map Piece.char) params url = if url = key then some params else none := by
  induction key generalizing url with
  | nil => cases url <;> simp [matchPieces]
  | cons c key ih =>
      cases url with
      | nil => simp [matchPieces]
      | cons d url =>
          by_cases hEq : c = d
          · simp [matchPieces, hEq, ih]
          · simp [matchPieces, hEq, Ne.symm hEq]

end Matching

/-! ## The rules of a tree -/

/-- The pieces that a node stands for itself. -/
def Node.pieces (node : Node) : List Piece :=
  match node.param with
  | some type => [.param type]
  | none => node.key.map Piece.char

mutual

/-- The rules below a node, with the pieces that lead to them. -/
def Node.rules (node : Node) : List (List Piece × Nat) :=
  match node with
  | ⟨ruleIndex, _, _, children⟩ =>
      (if ruleIndex = 0 then [] else [([], ruleIndex)]) ++ rulesOf children

def rulesOf (children : List Node) : List (List Piece × Nat) :=
  match children with
  | [] => []
  | child :: children =>
      child.rules.map (fun rule => (child.pieces ++ rule.1, rule.2)) ++ rulesOf children

end

/-- The rules of a node as seen from its parent. -/
def Node.branch (node : Node) : List (List Piece × Nat) :=
  node.rules.map fun rule => (node.pieces ++ rule.1, rule.2)

theorem rulesOf_cons (child : Node) (children : List Node) :
    rulesOf (child :: children) = child.branch ++ rulesOf children := by
  rw [rulesOf, Node.branch]

theorem rulesOf_append (first second : List Node) :
    rulesOf (first ++ second) = rulesOf first ++ rulesOf second := by
  induction first with
  | nil => simp [rulesOf]
  | cons child first ih => simp [rulesOf_cons, ih]

theorem Node.rules_eq (node : Node) :
    node.rules =
      (if node.ruleIndex = 0 then [] else [([], node.ruleIndex)]) ++ rulesOf node.children := by
  obtain ⟨ruleIndex, key, param, children⟩ := node
  rw [Node.rules]

mutual

/-- All nodes below a node have a property. -/
def Node.Below (P : Node → Prop) (node : Node) : Prop :=
  match node with
  | ⟨_, _, _, children⟩ => AllBelow P children

def AllBelow (P : Node → Prop) (children : List Node) : Prop :=
  match children with
  | [] => True
  | child :: children => (P child ∧ child.Below P) ∧ AllBelow P children

end

theorem allBelow_iff {P : Node → Prop} {children : List Node} :
    AllBelow P children ↔ ∀ child ∈ children, P child ∧ child.Below P := by
  induction children with
  | nil => simp [AllBelow]
  | cons child children ih => simp [AllBelow, ih]

theorem Node.below_iff {P : Node → Prop} {node : Node} :
    node.Below P ↔ AllBelow P node.children := by
  obtain ⟨ruleIndex, key, param, children⟩ := node
  rw [Node.Below]

mutual

theorem Node.below_mono {P Q : Node → Prop} (hImp : ∀ node, P node → Q node) (node : Node) :
    node.Below P → node.Below Q := by
  obtain ⟨ruleIndex, key, param, children⟩ := node
  exact allBelow_mono hImp children

theorem allBelow_mono {P Q : Node → Prop} (hImp : ∀ node, P node → Q node)
    (children : List Node) : AllBelow P children → AllBelow Q children := by
  cases children with
  | nil => exact id
  | cons child children =>
      rintro ⟨⟨hChild, hInner⟩, hChildren⟩
      exact ⟨⟨hImp child hChild, child.below_mono hImp hInner⟩,
        allBelow_mono hImp children hChildren⟩

end

/-- A node whose key is not empty, unless it stands for a parameter. -/
def Node.HasPieces (node : Node) : Prop := node.pieces ≠ []

/-! ## Merging -/

theorem Node.isSimpleNode_iff (ruleIndex : Nat) (key : Bytes) (param : Option ParamType)
    (child : Node) (children : List Node) :
    Node.isSimpleNode ⟨ruleIndex, key, param, child :: children⟩ = true ↔
      ruleIndex = 0 ∧ children = [] ∧ param = none ∧ child.param = none := by
  cases children with
  | nil => simp [Node.isSimpleNode, and_assoc]
  | cons next children => simp [Node.isSimpleNode]

/-- A chain of characters and what stands behind it. -/
theorem Node.branch_chain (key : Bytes) {child : Node} (hParam : child.param = none) :
    Node.branch ⟨0, key, none, [child]⟩ =
      Node.branch ⟨child.ruleIndex, key ++ child.key, none, child.children⟩ := by
  have hRules : Node.rules ⟨child.ruleIndex, key ++ child.key, none, child.children⟩ =
      child.rules := by
    rw [Node.rules, child.rules_eq]
  have hChain : Node.rules ⟨0, key, none, [child]⟩ = child.branch := by
    simp [Node.rules, rulesOf, Node.branch]
  rw [Node.branch, Node.branch, hChain, hRules, Node.branch, List.map_map]
  refine List.map_congr_left fun rule _ => ?_
  simp [Node.pieces, hParam]

/-- Merging chains changes nothing that is seen from above. -/
theorem rules_optimized :
    (∀ node : Node, node.optimizeNode.branch = node.branch) ∧
      ∀ children, rulesOf (optimizeAll children) = rulesOf children := by
  refine Node.optimizeNode.mutual_induct _ _ ?leaf ?chain ?fork ?nil ?cons
  case leaf =>
    intro ruleIndex key param
    rw [Node.optimizeNode]
  case chain =>
    intro ruleIndex key param child children hSimple ih
    obtain ⟨rfl, rfl, rfl, hParam⟩ := (Node.isSimpleNode_iff _ _ _ _ _).mp hSimple
    rw [Node.optimizeNode, if_pos hSimple, ih, Node.branch_chain key hParam]
  case fork =>
    intro ruleIndex key param child children hFork ih
    rw [Node.optimizeNode, if_neg hFork, Node.branch, Node.branch, Node.rules, Node.rules, ih]
    rfl
  case nil => rw [optimizeAll]
  case cons =>
    intro child children hChild hChildren
    rw [optimizeAll, rulesOf_cons, rulesOf_cons, hChild, hChildren]

/-- Merged keys are not empty either. -/
theorem hasPieces_optimized :
    (∀ node : Node, node.HasPieces ∧ node.Below Node.HasPieces →
        node.optimizeNode.HasPieces ∧ node.optimizeNode.Below Node.HasPieces) ∧
      ∀ children, AllBelow Node.HasPieces children →
        AllBelow Node.HasPieces (optimizeAll children) := by
  refine Node.optimizeNode.mutual_induct _ _ ?leaf ?chain ?fork ?nil ?cons
  case leaf =>
    intro ruleIndex key param hNode
    rwa [Node.optimizeNode]
  case chain =>
    rintro ruleIndex key param child children hSimple ih ⟨hNode, hBelow⟩
    obtain ⟨rfl, rfl, rfl, hParam⟩ := (Node.isSimpleNode_iff _ _ _ _ _).mp hSimple
    have hKey : key ≠ [] := by simpa [Node.HasPieces, Node.pieces] using hNode
    have hChild : child.Below Node.HasPieces :=
      (allBelow_iff.mp (Node.below_iff.mp hBelow) child List.mem_cons_self).2
    have hBehind : AllBelow Node.HasPieces child.children := Node.below_iff.mp hChild
    rw [Node.optimizeNode, if_pos hSimple]
    refine ih ⟨?_, Node.below_iff.mpr hBehind⟩
    simp [Node.HasPieces, Node.pieces, hKey]
  case fork =>
    rintro ruleIndex key param child children hFork ih ⟨hNode, hBelow⟩
    rw [Node.optimizeNode, if_neg hFork]
    exact ⟨hNode, Node.below_iff.mpr (ih (Node.below_iff.mp hBelow))⟩
  case nil =>
    rw [optimizeAll]
    exact id
  case cons =>
    intro child children hChild hChildren hBelow
    rw [optimizeAll]
    exact ⟨hChild hBelow.1, hChildren hBelow.2⟩

/-! ## Searching -/

section Searching

variable {δ : Type} (strtod : Bytes → Option (δ × Nat))

/-- What the rules of a list find, one result for each that matches. -/
def results (rules : List (List Piece × Nat)) (params : RoutingParams δ) (url : Bytes) :
    List (RoutingHandleResult δ) :=
  rules.filterMap fun rule => (matchPieces strtod rule.1 params url).map fun params =>
    ⟨rule.2, params⟩

theorem results_append (first second : List (List Piece × Nat)) (params : RoutingParams δ)
    (url : Bytes) : results strtod (first ++ second) params url =
      results strtod first params url ++ results strtod second params url :=
  List.filterMap_append

/-- A rule below a node is found if the search goes into the node and finds it there. -/
theorem results_branch (node : Node) (params : RoutingParams δ) (url : Bytes) :
    results strtod node.branch params url =
      match node.enter strtod params url with
      | some (params, rest) => results strtod node.rules params rest
      | none => [] := by
  have hMatch : ∀ way, matchPieces strtod (node.pieces ++ way) params url =
      (node.enter strtod params url).bind fun reached =>
        matchPieces strtod way reached.1 reached.2 := by
    intro way
    cases hParam : node.param with
    | none =>
        rw [Node.pieces, hParam, Node.enter, hParam, matchPieces_chars]
        split_ifs <;> rfl
    | some type =>
        rw [Node.pieces, hParam, Node.enter, hParam]
        cases hRead : type.read strtod url <;> simp [matchPieces, hRead]
  rw [results, Node.branch, List.filterMap_map]
  cases hEnter : node.enter strtod params url with
  | none => simp [hMatch, hEnter]
  | some reached =>
      refine List.filterMap_congr fun rule _ => ?_
      simp [hMatch, hEnter]

@[simp] theorem RoutingHandleResult.update_zero (found : RoutingHandleResult δ)
    (params : RoutingParams δ) : found.update ⟨0, params⟩ = found := by
  simp [RoutingHandleResult.update]

theorem RoutingHandleResult.update_assoc (first second third : RoutingHandleResult δ) :
    first.update (second.update third) = (first.update second).update third := by
  unfold RoutingHandleResult.update
  grind

theorem update_foldl (found start : RoutingHandleResult δ) (more : List (RoutingHandleResult δ)) :
    found.update (more.foldl RoutingHandleResult.update start) =
      more.foldl RoutingHandleResult.update (found.update start) := by
  induction more generalizing start with
  | nil => rfl
  | cons ret more ih =>
      rw [List.foldl_cons, List.foldl_cons, ih, RoutingHandleResult.update_assoc]

/-- At the end of the URL there is no way further down. -/
theorem results_rulesOf_nil {children : List Node} (params : RoutingParams δ)
    (hBelow : AllBelow Node.HasPieces children) :
    results strtod (rulesOf children) params [] = [] := by
  induction children with
  | nil => rfl
  | cons child children ih =>
      obtain ⟨⟨hChild, -⟩, hChildren⟩ := hBelow
      have hEnter : child.enter strtod params [] = none := by
        rw [Node.HasPieces, Node.pieces] at hChild
        cases hParam : child.param with
        | none => simpa [Node.enter, hParam] using hChild
        | some type => simp [Node.enter, hParam]
      rw [rulesOf_cons, results_append, results_branch, hEnter, ih hChildren]
      rfl

mutual

/-- A search from a node updates a result as the rules below the node do one after another. -/
theorem Node.update_find (node : Node) (params : RoutingParams δ) (url : Bytes)
    (found : RoutingHandleResult δ) : node.Below Node.HasPieces →
      found.update (node.find strtod params url) =
        (results strtod node.rules params url).foldl RoutingHandleResult.update found := by
  obtain ⟨ruleIndex, key, param, children⟩ := node
  intro hBelow
  rw [Node.below_iff] at hBelow
  have hOwn : results strtod (if ruleIndex = 0 then [] else [([], ruleIndex)]) params url =
      if url = [] ∧ ruleIndex ≠ 0 then [⟨ruleIndex, params⟩] else [] := by
    cases url <;> split_ifs <;> simp_all [results, matchPieces]
  rw [Node.find, Node.rules, results_append, List.foldl_append, hOwn]
  by_cases hEnd : url = []
  · -- the URL ends here, so no rule further down matches
    obtain rfl := hEnd
    rw [if_pos rfl, results_rulesOf_nil strtod params hBelow]
    by_cases hIndex : ruleIndex = 0
    · simp [hIndex]
    · simp [hIndex]
  · rw [if_neg hEnd, if_neg (fun hBoth => hEnd hBoth.1), findAll_eq children params url {} hBelow,
      update_foldl, RoutingHandleResult.update_zero]
    rfl

theorem findAll_eq (children : List Node) (params : RoutingParams δ) (url : Bytes)
    (found : RoutingHandleResult δ) : AllBelow Node.HasPieces children →
      findAll strtod children params url found =
        (results strtod (rulesOf children) params url).foldl RoutingHandleResult.update found := by
  cases children with
  | nil => exact fun _ => by rw [findAll]; rfl
  | cons child children =>
      rintro ⟨⟨-, hChild⟩, hChildren⟩
      rw [findAll, rulesOf_cons, results_append, List.foldl_append, results_branch]
      cases child.enter strtod params url with
      | none => exact findAll_eq children params url found hChildren
      | some reached =>
          obtain ⟨taken, rest⟩ := reached
          show findAll strtod children params url (found.update (child.find strtod taken rest)) = _
          rw [findAll_eq children params url _ hChildren,
            child.update_find taken rest found hChild]

end

/-- The first of the results with the least index. -/
theorem foldl_update_cases {more : List (RoutingHandleResult δ)}
    (hIndex : ∀ ret ∈ more, ret.ruleIndex ≠ 0) :
    more = [] ∧ more.foldl RoutingHandleResult.update {} = {} ∨
      more.foldl RoutingHandleResult.update {} ∈ more ∧ ∀ ret ∈ more,
        (more.foldl RoutingHandleResult.update {}).ruleIndex ≤ ret.ruleIndex := by
  induction more using List.reverseRecOn with
  | nil => exact .inl ⟨rfl, rfl⟩
  | append_singleton more last ih =>
      right
      rw [List.foldl_concat]
      have hLast : last.ruleIndex ≠ 0 := hIndex last (by simp)
      rcases ih fun ret hMem => hIndex ret (by simp [hMem]) with ⟨rfl, -⟩ | ⟨hMem, hLeast⟩
      · simp [RoutingHandleResult.update, hLast]
      · have hFound := hIndex _ (List.mem_append_left [last] hMem)
        rw [RoutingHandleResult.update]
        split_ifs with hLess
        · refine ⟨by simp, fun ret hRet => ?_⟩
          rcases List.mem_append.mp hRet with hOther | hOther
          · have hBefore := hLeast ret hOther
            omega
          · rw [List.mem_singleton.mp hOther]
        · refine ⟨List.mem_append_left _ hMem, fun ret hRet => ?_⟩
          rcases List.mem_append.mp hRet with hOther | hOther
          · exact hLeast ret hOther
          · rw [List.mem_singleton.mp hOther]
            omega

mutual

/-- No rule has the index that stands for none. -/
theorem Node.index_ne_zero (node : Node) : ∀ rule ∈ node.rules, rule.2 ≠ 0 := by
  obtain ⟨ruleIndex, key, param, children⟩ := node
  intro rule hMem
  rw [Node.rules] at hMem
  rcases List.mem_append.mp hMem with hOwn | hChild
  · split_ifs at hOwn with hIndex
    · cases hOwn
    · rw [List.mem_singleton.mp hOwn]
      exact hIndex
  · exact rulesOf_index_ne_zero children rule hChild

theorem rulesOf_index_ne_zero (children : List Node) : ∀ rule ∈ rulesOf children, rule.2 ≠ 0 := by
  cases children with
  | nil => exact fun rule hMem => by cases hMem
  | cons child children =>
      intro rule hMem
      rw [rulesOf] at hMem
      rcases List.mem_append.mp hMem with hChild | hOther
      · obtain ⟨inner, hInner, rfl⟩ := List.mem_map.mp hChild
        exact child.index_ne_zero inner hInner
      · exact rulesOf_index_ne_zero children rule hOther

end

theorem mem_results {rules : List (List Piece × Nat)} {params : RoutingParams δ} {url : Bytes}
    {ret : RoutingHandleResult δ} :
    ret ∈ results strtod rules params url ↔
      ∃ rule ∈ rules, matchPieces strtod rule.1 params url = some ret.rParams ∧
        rule.2 = ret.ruleIndex := by
  obtain ⟨ruleIndex, rParams⟩ := ret
  simp only [results, List.mem_filterMap, Option.map_eq_some_iff, RoutingHandleResult.mk.injEq]
  refine exists_congr fun rule => and_congr_right fun _ => ⟨?_, ?_⟩
  · rintro ⟨found, hMatch, hIndex, rfl⟩
    exact ⟨hMatch, hIndex⟩
  · rintro ⟨hMatch, hIndex⟩
    exact ⟨rParams, hMatch, hIndex, rfl⟩

theorem results_index_ne_zero {rules : List (List Piece × Nat)}
    (hRules : ∀ rule ∈ rules, rule.2 ≠ 0) (params : RoutingParams δ) (url : Bytes) :
    ∀ ret ∈ results strtod rules params url, ret.ruleIndex ≠ 0 := by
  intro ret hRet
  obtain ⟨rule, hMem, -, hEq⟩ := (mem_results strtod).mp hRet
  exact hEq ▸ hRules rule hMem

/-- A search from the root with nothing found before. -/
theorem Node.find_eq_foldl (node : Node) (hBelow : node.Below Node.HasPieces) (url : Bytes) :
    node.find strtod {} url =
      (results strtod node.rules {} url).foldl RoutingHandleResult.update {} := by
  rw [← node.update_find strtod {} url {} hBelow]
  by_cases hZero : (node.find strtod {} url).ruleIndex = 0
  · have hNone : node.find strtod {} url = {} := by
      obtain ⟨ruleIndex, key, param, children⟩ := node
      rw [Node.below_iff] at hBelow
      rw [Node.find] at hZero ⊢
      split_ifs at hZero ⊢ with hEnd
      · exact congrArg (RoutingHandleResult.mk · {}) hZero
      · have hChildren :=
          results_index_ne_zero strtod (rulesOf_index_ne_zero children) {} url
        rw [findAll_eq strtod children {} url {} hBelow] at hZero ⊢
        rcases foldl_update_cases hChildren with ⟨-, hNone⟩ | ⟨hMem, -⟩
        · exact hNone
        · exact absurd hZero (hChildren _ hMem)
    rw [hNone]
    rfl
  · rw [RoutingHandleResult.update, if_pos ⟨hZero, .inl rfl⟩]

/-- A search finds nothing, or a rule that matches with the least index. -/
theorem Trie.find_cases {trie : Trie} (hBelow : trie.head.Below Node.HasPieces) (url : Bytes) :
    (trie.find strtod url = {} ∧
        ∀ rule ∈ trie.head.rules, matchPieces strtod rule.1 {} url = none) ∨
      ∃ rule ∈ trie.head.rules,
        matchPieces strtod rule.1 {} url = some (trie.find strtod url).rParams ∧
        rule.2 = (trie.find strtod url).ruleIndex ∧
        ∀ other ∈ trie.head.rules, (matchPieces strtod other.1 {} url).isSome →
          rule.2 ≤ other.2 := by
  rw [Trie.find, trie.head.find_eq_foldl strtod hBelow url]
  rcases foldl_update_cases (results_index_ne_zero strtod trie.head.index_ne_zero {} url) with ⟨hEmpty, hNone⟩ | ⟨hMem, hLeast⟩
  · refine .inl ⟨hNone, fun rule hRule => ?_⟩
    cases hMatch : matchPieces strtod rule.1 {} url with
    | none => rfl
    | some params =>
        have hRet : (⟨rule.2, params⟩ : RoutingHandleResult δ) ∈
            results strtod trie.head.rules {} url :=
          (mem_results strtod).mpr ⟨rule, hRule, hMatch, rfl⟩
        rw [hEmpty] at hRet
        cases hRet
  · obtain ⟨rule, hRule, hMatch, hEq⟩ := (mem_results strtod).mp hMem
    refine .inr ⟨rule, hRule, hMatch, hEq, fun other hOther hSome => ?_⟩
    obtain ⟨params, hParams⟩ := Option.isSome_iff_exists.mp hSome
    rw [hEq]
    exact hLeast ⟨other.2, params⟩ ((mem_results strtod).mpr ⟨other, hOther, hParams, rfl⟩)

end Searching

/-! ## Adding -/

/-- A node as `add` makes it: one character or one parameter. -/
def Node.IsOne (node : Node) : Prop :=
  match node.param with
  | some _ => node.key = []
  | none => node.key.length = 1

theorem Node.IsOne.hasPieces {node : Node} (hOne : node.IsOne) : node.HasPieces := by
  rw [Node.IsOne] at hOne
  rw [Node.HasPieces, Node.pieces]
  cases hParam : node.param with
  | some type => simp
  | none =>
      rw [hParam] at hOne
      exact fun hNil => by simp [List.map_eq_nil_iff.mp hNil] at hOne

theorem Piece.isOne_newNode (piece : Piece) : piece.newNode.IsOne := by
  cases piece <;> rfl

theorem Piece.below_newNode (piece : Piece) : piece.newNode.Below Node.IsOne := by
  cases piece <;> trivial

theorem Piece.rules_newNode (piece : Piece) : piece.newNode.rules = [] := by
  cases piece <;> rfl

theorem Piece.pieces_newNode (piece : Piece) : piece.newNode.pieces = [piece] := by
  cases piece <;> rfl

/-- The child that a piece leads to stands for this piece. -/
theorem Piece.pieces_of_leadsTo {piece : Piece} {child : Node} (hPiece : piece ≠ .char 0)
    (hOne : child.IsOne) (hLeads : piece.leadsTo child = true) : child.pieces = [piece] := by
  rw [Node.IsOne] at hOne
  rw [Node.pieces]
  cases hParam : child.param with
  | some type =>
      rw [hParam] at hOne
      cases piece with
      | char c =>
          have hNul : 0 = c := by simpa [Piece.leadsTo, hOne] using hLeads
          exact absurd (congrArg Piece.char hNul.symm) hPiece
      | param other =>
          have hSame : type = other := by simpa [Piece.leadsTo, hParam] using hLeads
          rw [hSame]
  | none =>
      rw [hParam] at hOne
      obtain ⟨d, hKey⟩ := List.length_eq_one_iff.mp hOne
      cases piece with
      | char c =>
          have hSame : d = c := by simpa [Piece.leadsTo, hKey] using hLeads
          simp [hKey, hSame]
      | param other => simp [Piece.leadsTo, hParam] at hLeads

theorem Node.branch_of_pieces {node : Node} {piece : Piece} (hPieces : node.pieces = [piece]) :
    node.branch = node.rules.map fun rule => (piece :: rule.1, rule.2) := by
  rw [Node.branch, hPieces]
  rfl

/-- A piece leads to a child, or a new one is made behind the others. -/
theorem Node.add_cons (ruleIndex : Nat) (node : Node) (piece : Piece) (way : List Piece) :
    (∃ before child behind, node.children = before ++ child :: behind ∧
        piece.leadsTo child = true ∧
        node.add ruleIndex (piece :: way) = (child.add ruleIndex way).map fun child =>
          { node with children := before ++ child :: behind }) ∨
      node.add ruleIndex (piece :: way) = (piece.newNode.add ruleIndex way).map fun child =>
        { node with children := node.children ++ [child] } := by
  rw [Node.add, List.span_eq_takeWhile_dropWhile]
  have hSplit := List.takeWhile_append_dropWhile (p := fun child => !piece.leadsTo child)
    (l := node.children)
  cases hBehind : node.children.dropWhile fun child => !piece.leadsTo child with
  | nil =>
      rw [hBehind, List.append_nil] at hSplit
      exact .inr (by rw [hSplit])
  | cons child behind =>
      rw [hBehind] at hSplit
      have hNe : node.children.dropWhile (fun child => !piece.leadsTo child) ≠ [] := by
        simp [hBehind]
      have hHead := List.head_dropWhile_not (fun child => !piece.leadsTo child) hNe
      refine .inl ⟨_, child, behind, hSplit.symm, ?_, rfl⟩
      simpa [hBehind] using hHead

/-- One more rule below a child is one more rule below all children. -/
theorem rulesOf_replace {child added : Node} {rule : List Piece × Nat}
    (hBranch : added.branch.Perm (rule :: child.branch)) (before behind : List Node) :
    (rulesOf (before ++ added :: behind)).Perm (rule :: rulesOf (before ++ child :: behind)) := by
  rw [rulesOf_append, rulesOf_append, rulesOf_cons, rulesOf_cons]
  exact ((hBranch.append_right _).append_left _).trans List.perm_middle

/-- A new child brings its rules. -/
theorem rulesOf_concat {added : Node} {rule : List Piece × Nat}
    (hBranch : added.branch.Perm [rule]) (children : List Node) :
    (rulesOf (children ++ [added])).Perm (rule :: rulesOf children) := by
  rw [rulesOf_append, rulesOf_cons, show rulesOf [] = [] from rfl, List.append_nil]
  exact (hBranch.append_left _).trans List.perm_append_comm

/-- What `add` keeps of a node: its own key and parameter. -/
structure Node.AddsRule (node added : Node) (rule : List Piece × Nat) : Prop where
  key : added.key = node.key
  param : added.param = node.param
  rules : added.rules.Perm (rule :: node.rules)
  below : added.Below Node.IsOne

theorem Node.AddsRule.pieces {node added : Node} {rule : List Piece × Nat}
    (hAdds : node.AddsRule added rule) : added.pieces = node.pieces := by
  rw [Node.pieces, Node.pieces, hAdds.key, hAdds.param]

theorem Node.AddsRule.isOne {node added : Node} {rule : List Piece × Nat}
    (hAdds : node.AddsRule added rule) (hOne : node.IsOne) : added.IsOne := by
  rw [Node.IsOne, hAdds.key, hAdds.param]
  exact hOne

/-- The rule as it is seen from the parent. -/
theorem Node.AddsRule.branch {node added : Node} {way : List Piece} {ruleIndex : Nat}
    (hAdds : node.AddsRule added (way, ruleIndex)) {piece : Piece} (hPieces : node.pieces = [piece]) :
    added.branch.Perm ((piece :: way, ruleIndex) :: node.branch) := by
  rw [Node.branch_of_pieces hPieces, Node.branch_of_pieces (hAdds.pieces.trans hPieces)]
  exact hAdds.rules.map _

/-- Other children with one rule more make a node with one rule more. -/
theorem Node.addsRule_of_children {node : Node} {children : List Node} {rule : List Piece × Nat}
    (hRules : (rulesOf children).Perm (rule :: rulesOf node.children))
    (hBelow : AllBelow Node.IsOne children) :
    node.AddsRule { node with children := children } rule where
  key := rfl
  param := rfl
  rules := by
    rw [Node.rules_eq, Node.rules_eq node]
    exact (hRules.append_left _).trans List.perm_middle
  below := Node.below_iff.mpr hBelow

theorem allBelow_replace {before behind : List Node} {child added : Node}
    (hBelow : AllBelow Node.IsOne (before ++ child :: behind))
    (hAdded : added.IsOne ∧ added.Below Node.IsOne) :
    AllBelow Node.IsOne (before ++ added :: behind) := by
  rw [allBelow_iff] at hBelow ⊢
  intro other hMem
  rcases List.mem_append.mp hMem with hBefore | hBehind
  · exact hBelow other (List.mem_append_left _ hBefore)
  · rcases List.mem_cons.mp hBehind with rfl | hBehind
    · exact hAdded
    · exact hBelow other (by simp [hBehind])

theorem allBelow_concat {children : List Node} {added : Node}
    (hBelow : AllBelow Node.IsOne children) (hAdded : added.IsOne ∧ added.Below Node.IsOne) :
    AllBelow Node.IsOne (children ++ [added]) := by
  rw [allBelow_iff] at hBelow ⊢
  intro other hMem
  rcases List.mem_append.mp hMem with hBefore | hLast
  · exact hBelow other hBefore
  · rw [List.mem_singleton.mp hLast]
    exact hAdded

/-- `add` either finds the place of the rule taken or adds the rule. -/
theorem Node.add_cases {ruleIndex : Nat} (hIndex : ruleIndex ≠ 0) {way : List Piece}
    (hWay : Piece.char 0 ∉ way) {node : Node} (hBelow : node.Below Node.IsOne) :
    (node.add ruleIndex way = none ∧ ∃ other, (way, other) ∈ node.rules) ∨
      ∃ added, node.add ruleIndex way = some added ∧ node.AddsRule added (way, ruleIndex) := by
  induction way generalizing node with
  | nil =>
      rw [Node.add, node.rules_eq]
      by_cases hTaken : node.ruleIndex = 0
      · rw [if_neg (by simp [hTaken])]
        have hChildren : AllBelow Node.IsOne node.children := Node.below_iff.mp hBelow
        refine .inr ⟨_, rfl, rfl, rfl, ?_, Node.below_iff.mpr hChildren⟩
        rw [Node.rules_eq, Node.rules_eq node, if_neg hIndex, if_pos hTaken]
        exact List.Perm.refl _
      · rw [if_pos hTaken, if_neg hTaken]
        exact .inl ⟨rfl, node.ruleIndex, List.mem_append_left _ (List.mem_singleton_self _)⟩
  | cons piece way ih =>
      have hPiece : piece ≠ .char 0 := fun hEq => hWay (hEq ▸ List.mem_cons_self)
      have hRest : Piece.char 0 ∉ way := fun hMem => hWay (List.mem_cons_of_mem piece hMem)
      rw [Node.below_iff] at hBelow
      rcases Node.add_cons ruleIndex node piece way with
        ⟨before, child, behind, hChildren, hLeads, hAdd⟩ | hAdd
      · rw [hChildren] at hBelow
        obtain ⟨hOne, hChild⟩ := allBelow_iff.mp hBelow child (by simp)
        have hPieces := Piece.pieces_of_leadsTo hPiece hOne hLeads
        rcases ih hRest hChild with ⟨hNone, other, hMem⟩ | ⟨added, hSome, hAdds⟩
        · refine .inl ⟨by rw [hAdd, hNone]; rfl, other, ?_⟩
          rw [node.rules_eq, hChildren, rulesOf_append, rulesOf_cons,
            Node.branch_of_pieces hPieces]
          refine List.mem_append_right _ (List.mem_append_right _ (List.mem_append_left _ ?_))
          exact List.mem_map.mpr ⟨_, hMem, rfl⟩
        · refine .inr ⟨_, by rw [hAdd, hSome]; rfl, Node.addsRule_of_children ?_ ?_⟩
          · rw [hChildren]
            exact rulesOf_replace (hAdds.branch hPieces) before behind
          · exact allBelow_replace hBelow ⟨hAdds.isOne hOne, hAdds.below⟩
      · rcases ih hRest piece.below_newNode with ⟨-, other, hMem⟩ | ⟨added, hSome, hAdds⟩
        · rw [piece.rules_newNode] at hMem
          cases hMem
        · have hBranch := hAdds.branch piece.pieces_newNode
          rw [Node.branch_of_pieces piece.pieces_newNode, piece.rules_newNode] at hBranch
          refine .inr ⟨_, by rw [hAdd, hSome]; rfl, Node.addsRule_of_children ?_ ?_⟩
          · exact rulesOf_concat hBranch node.children
          · exact allBelow_concat hBelow ⟨hAdds.isOne piece.isOne_newNode, hAdds.below⟩

/-! ## The tree that is built -/

/-- A tree before the merging, with the rules that were added to it. -/
structure Trie.Holds (trie : Trie) (rules : List (List Piece × Nat)) : Prop where
  rules : trie.head.rules.Perm rules
  below : trie.head.Below Node.IsOne

theorem Trie.holds_nil : Trie.Holds {} [] := ⟨List.Perm.refl _, trivial⟩

theorem Trie.Holds.perm {trie : Trie} {rules others : List (List Piece × Nat)}
    (hHolds : trie.Holds rules) (hPerm : rules.Perm others) : trie.Holds others :=
  ⟨hHolds.rules.trans hPerm, hHolds.below⟩

/-- A rule is added unless there is one with the same pieces. -/
theorem Trie.Holds.add_cases {trie : Trie} {rules : List (List Piece × Nat)}
    (hHolds : trie.Holds rules) {url : Bytes} {way : List Piece} (hPieces : pieces url = some way)
    (hWay : Piece.char 0 ∉ way) {ruleIndex : Nat} (hIndex : ruleIndex ≠ 0) :
    (trie.add url ruleIndex = .error (.runtimeError (ascii "handler already exists for " ++ url)) ∧
        way ∈ rules.map Prod.fst) ∨
      ∃ added, trie.add url ruleIndex = .ok added ∧ added.Holds ((way, ruleIndex) :: rules) := by
  rw [Trie.add, hPieces]
  rcases Node.add_cases hIndex hWay hHolds.below with ⟨hNone, other, hMem⟩ | ⟨head, hSome, hAdds⟩
  · exact .inl ⟨by simp only [hNone], List.mem_map_of_mem (hHolds.rules.subset hMem)⟩
  · exact .inr ⟨⟨head⟩, by simp only [hSome],
      hAdds.rules.trans (hHolds.rules.cons _), hAdds.below⟩

/-- The merged tree holds the same rules, and all of its keys are there. -/
theorem Trie.Holds.optimize {trie : Trie} {rules : List (List Piece × Nat)}
    (hHolds : trie.Holds rules) :
    trie.optimize.head.rules.Perm rules ∧ trie.optimize.head.Below Node.HasPieces := by
  obtain ⟨⟨ruleIndex, key, param, children⟩⟩ := trie
  obtain ⟨hRules, hBelow⟩ := hHolds
  constructor
  · rw [Node.rules] at hRules
    rw [Trie.optimize, Node.rules, rules_optimized.2]
    exact hRules
  · exact Node.below_iff.mpr (hasPieces_optimized.2 children
      (allBelow_mono (fun _ => Node.IsOne.hasPieces) children hBelow))

end Crow
end AzsServer
