import AzsServer.Crow.Router
import AzsServer.Crow.TrieRules

/-!
# The rule that handles a request

The router looks a URL up in a merged tree of characters and takes the least index that it finds
there.  What comes out is the first rule of the method, in the order in which the program
registers them, that the URL matches; only a rule with a trailing slash goes in front of all
others, for the URL without it.
-/

namespace AzsServer
namespace Crow

open Library

section Choosing

variable {H δ : Type} (strtod : Bytes → Option (δ × Nat))

/-- The parameters of a URL that matches the URL of a rule. -/
def matchUrl (rule url : Bytes) : Option (RoutingParams δ) :=
  (pieces rule).bind fun way => matchPieces strtod way {} url

/-- Whether a rule with a trailing slash matches the URL without it. -/
def redirects (rules : List (Rule H)) (url : Bytes) : Bool :=
  rules.any fun rule => rule.withoutTrailingSlash.any fun rule =>
    (matchUrl strtod rule url).isSome

/-- What the rules of a method say about a URL, read one after the other. -/
def chosen (rules : List (Rule H)) (url host : Bytes) : Option (Handled H δ) :=
  if redirects strtod rules url = true then some (.redirect (slashLocation url host))
  else rules.findSome? fun rule =>
    (matchUrl strtod rule.rule url).map fun params => .call rule.handler params

end Choosing

section Rules

variable {H : Type}

/-- The rules of a method. -/
def rulesFor (allRules : List (Rule H)) (method : HTTPMethod) : List (Rule H) :=
  allRules.filter fun rule => method ∈ foreachMethod rule.methods

/-- What a rule adds to the tree under an index. -/
def Rule.entries (rule : Rule H) (ruleIndex : Nat) : List (List Piece × Nat) :=
  (rule.withoutTrailingSlash.bind pieces).toList.map (·, ruleSpecialRedirectSlash) ++
    (pieces rule.rule).toList.map (·, ruleIndex)

/-- What the rules of a method add to its tree; the first two indices have another meaning. -/
def entriesOf (rules : List (Rule H)) : List (List Piece × Nat) :=
  (rules.zipIdx 2).flatMap fun rule => rule.1.entries rule.2

theorem entriesOf_concat (rules : List (Rule H)) (rule : Rule H) :
    entriesOf (rules ++ [rule]) = entriesOf rules ++ rule.entries (rules.length + 2) := by
  simp [entriesOf, List.zipIdx_append, Nat.add_comm]

theorem mem_entriesOf {rules : List (Rule H)} {way : List Piece} {ruleIndex : Nat} :
    (way, ruleIndex) ∈ entriesOf rules ↔
      (ruleIndex = ruleSpecialRedirectSlash ∧
          ∃ rule ∈ rules, ∃ url ∈ rule.withoutTrailingSlash, pieces url = some way) ∨
        2 ≤ ruleIndex ∧
          ∃ rule, rules[ruleIndex - 2]? = some rule ∧ pieces rule.rule = some way := by
  simp only [entriesOf, List.mem_flatMap, Prod.exists, List.mk_mem_zipIdx_iff_le_and_getElem?_sub,
    Rule.entries, List.mem_append, List.mem_map, Option.mem_toList, Option.mem_def,
    Option.bind_eq_some_iff, Prod.mk.injEq]
  constructor
  · rintro ⟨rule, i, ⟨hLow, hRule⟩, ⟨found, ⟨url, hUrl, hWay⟩, rfl, rfl⟩ | ⟨found, hWay, rfl, rfl⟩⟩
    · exact .inl ⟨rfl, rule, List.mem_of_getElem? hRule, url, hUrl, hWay⟩
    · exact .inr ⟨hLow, rule, hRule, hWay⟩
  · rintro (⟨rfl, rule, hMem, url, hUrl, hWay⟩ | ⟨hLow, rule, hRule, hWay⟩)
    · obtain ⟨k, hRule⟩ := List.getElem?_of_mem hMem
      exact ⟨rule, k + 2, ⟨by omega, by simpa using hRule⟩, .inl ⟨way, ⟨url, hUrl, hWay⟩, rfl, rfl⟩⟩
    · exact ⟨rule, ruleIndex, ⟨hLow, hRule⟩, .inr ⟨way, hWay, rfl, rfl⟩⟩

/-! ## Registration -/

/-- The characters of the pieces stand in the URL. -/
theorem mem_of_mem_piecesFrom {c : UInt8} {skipped : Nat} {url : Bytes} {way : List Piece}
    (hPieces : piecesFrom skipped url = some way) (hMem : Piece.char c ∈ way) : c ∈ url := by
  induction url generalizing skipped way with
  | nil =>
      rw [piecesFrom, Option.some.injEq] at hPieces
      rw [← hPieces] at hMem
      cases hMem
  | cons d url ih =>
      cases skipped with
      | succ skipped =>
          rw [piecesFrom] at hPieces
          exact List.mem_cons_of_mem d (ih hPieces hMem)
      | zero =>
          rw [piecesFrom] at hPieces
          split_ifs at hPieces with hOpen
          · cases hTraits : findTraits (d :: url) with
            | none => simp [hTraits] at hPieces
            | some traits =>
                simp only [hTraits, Option.map_eq_some_iff] at hPieces
                obtain ⟨rest, hRest, rfl⟩ := hPieces
                have hBehind : Piece.char c ∈ rest := by simpa using hMem
                exact List.mem_cons_of_mem d (ih hRest hBehind)
          · obtain ⟨rest, hRest, rfl⟩ := Option.map_eq_some_iff.mp hPieces
            rcases List.mem_cons.mp hMem with hHead | hBehind
            · rw [Piece.char.inj hHead]
              exact List.mem_cons_self
            · exact List.mem_cons_of_mem d (ih hRest hBehind)

theorem notMem_pieces {url : Bytes} (hNul : 0 ∉ url) {way : List Piece}
    (hPieces : pieces url = some way) : Piece.char 0 ∉ way :=
  fun hMem => hNul (mem_of_mem_piecesFrom hPieces hMem)

theorem Rule.notMem_withoutTrailingSlash {rule : Rule H} (hNul : 0 ∉ rule.rule) {url : Bytes}
    (hUrl : rule.withoutTrailingSlash = some url) : 0 ∉ url := by
  rw [Rule.withoutTrailingSlash] at hUrl
  split_ifs at hUrl
  obtain rfl := Option.some.inj hUrl
  exact fun hMem => hNul (List.dropLast_subset _ hMem)

/-- What a tree holds after a rule is added. -/
theorem Trie.Holds.of_add {trie added : Trie} {entries : List (List Piece × Nat)}
    (hHolds : trie.Holds entries) {url : Bytes} (hNul : 0 ∉ url) {ruleIndex : Nat}
    (hIndex : ruleIndex ≠ 0) (hAdd : trie.add url ruleIndex = .ok added) :
    added.Holds ((pieces url).toList.map (·, ruleIndex) ++ entries) := by
  cases hPieces : pieces url with
  | none =>
      rw [Trie.add, hPieces] at hAdd
      cases hAdd
  | some way =>
      rcases hHolds.add_cases hPieces (notMem_pieces hNul hPieces) hIndex with
        ⟨hError, -⟩ | ⟨head, hOk, hHead⟩
      · rw [hError] at hAdd
        cases hAdd
      · rw [hOk] at hAdd
        obtain rfl := Except.ok.inj hAdd
        exact hHead

/-- The rules and the tree of a method before the merging. -/
structure PerMethod.Holds (perMethod : PerMethod H) (registered : List (Rule H)) : Prop where
  rules : perMethod.rules = none :: none :: registered.map some
  trie : perMethod.trie.Holds (entriesOf registered)

theorem PerMethod.holds_nil : PerMethod.Holds ({} : PerMethod H) [] :=
  ⟨rfl, Trie.holds_nil⟩

/-- One more rule; the number of rules fits into a `uint16_t`. -/
theorem PerMethod.Holds.addRule {perMethod added : PerMethod H} {registered : List (Rule H)}
    (hHolds : perMethod.Holds registered) {rule : Rule H} (hNul : 0 ∉ rule.rule)
    (hRoom : registered.length + 2 < 2 ^ 16) (hAdd : perMethod.addRule rule = .ok added) :
    added.Holds (registered ++ [rule]) := by
  obtain ⟨hRules, hTrie⟩ := hHolds
  have hIndex : (perMethod.rules ++ [some rule]).length - 1 = registered.length + 2 := by
    simp [hRules]
  have hMod : (registered.length + 2) % 2 ^ 16 = registered.length + 2 := Nat.mod_eq_of_lt hRoom
  have hBoth : perMethod.rules ++ [some rule] = none :: none :: (registered ++ [rule]).map some := by
    simp [hRules]
  simp only [PerMethod.addRule, hIndex, hMod] at hAdd
  cases hFirst : perMethod.trie.add rule.rule (registered.length + 2) with
  | error failure =>
      rw [hFirst] at hAdd
      cases hAdd
  | ok trie =>
      rw [hFirst] at hAdd
      have hTrie := hTrie.of_add hNul (Nat.succ_ne_zero _) hFirst
      have hEntries : (entriesOf (registered ++ [rule])).Perm
          ((rule.withoutTrailingSlash.bind pieces).toList.map (·, ruleSpecialRedirectSlash) ++
            ((pieces rule.rule).toList.map (·, registered.length + 2) ++ entriesOf registered)) := by
        rw [entriesOf_concat, Rule.entries, ← List.append_assoc (List.map _ _) (List.map _ _)]
        exact List.perm_append_comm
      cases hSlash : rule.withoutTrailingSlash with
      | none =>
          rw [hSlash] at hAdd hEntries
          obtain rfl := Except.ok.inj hAdd
          exact ⟨hBoth, hTrie.perm hEntries.symm⟩
      | some url =>
          rw [hSlash] at hAdd hEntries
          cases hSecond : trie.add url ruleSpecialRedirectSlash with
          | error failure => simp [bind, Except.bind, hSecond] at hAdd
          | ok slashed =>
              have hAdded : ⟨perMethod.rules ++ [some rule], slashed⟩ = added := by
                simpa [bind, Except.bind, hSecond, pure, Except.pure] using hAdd
              obtain rfl := hAdded
              have hSlashed := hTrie.of_add (Rule.notMem_withoutTrailingSlash hNul hSlash)
                Nat.one_ne_zero hSecond
              exact ⟨hBoth, hSlashed.perm hEntries.symm⟩

/-- The rules of a method are added one after the other. -/
theorem PerMethod.Holds.foldlM {perMethod added : PerMethod H} {before more : List (Rule H)}
    (hHolds : perMethod.Holds before) (hNul : ∀ rule ∈ more, 0 ∉ rule.rule)
    (hRoom : (before ++ more).length + 2 ≤ 2 ^ 16)
    (hAdd : more.foldlM PerMethod.addRule perMethod = .ok added) :
    added.Holds (before ++ more) := by
  induction more generalizing before perMethod with
  | nil =>
      obtain rfl : perMethod = added := Except.ok.inj hAdd
      rwa [List.append_nil]
  | cons rule more ih =>
      rw [List.foldlM_cons] at hAdd
      cases hFirst : perMethod.addRule rule with
      | error failure =>
          rw [hFirst] at hAdd
          cases hAdd
      | ok next =>
          rw [hFirst] at hAdd
          rw [List.length_append, List.length_cons] at hRoom
          have hNext := hHolds.addRule (hNul rule List.mem_cons_self) (by omega) hFirst
          have hAll := ih hNext (fun other hMem => hNul other (List.mem_cons_of_mem rule hMem))
            (by simp only [List.length_append, List.length_cons, List.length_nil]; omega) hAdd
          rwa [List.append_assoc] at hAll

theorem HTTPMethod.nodup_all : HTTPMethod.all.Nodup := by decide

theorem HTTPMethod.mem_all (method : HTTPMethod) : method ∈ HTTPMethod.all := by
  cases method <;> decide

theorem nodup_foreachMethod (methods : BitVec 32) : (foreachMethod methods).Nodup :=
  HTTPMethod.nodup_all.filter _

/-- The methods do not disturb each other when the rules are distributed. -/
theorem foldlM_internalAddRuleObject {allRules : List (Rule H)} {start router : Router H}
    (hAll : allRules.foldlM Router.internalAddRuleObject start = .ok router)
    (method : HTTPMethod) :
    (rulesFor allRules method).foldlM PerMethod.addRule (start method) = .ok (router method) := by
  induction allRules generalizing start with
  | nil =>
      obtain rfl : start = router := Except.ok.inj hAll
      rfl
  | cons rule allRules ih =>
      rw [List.foldlM_cons] at hAll
      cases hFirst : start.internalAddRuleObject rule with
      | error failure =>
          rw [hFirst] at hAll
          cases hAll
      | ok next =>
          rw [hFirst] at hAll
          obtain ⟨hTaken, hOther⟩ :=
            (updateEach_eq_ok_iff (nodup_foreachMethod rule.methods)).mp hFirst
          have hRest := ih hAll
          rw [rulesFor, List.filter_cons]
          split_ifs with hMem
          · rw [List.foldlM_cons, hTaken method (of_decide_eq_true hMem)]
            exact hRest
          · rwa [← hOther method fun hIn => hMem (decide_eq_true hIn)]

/-- The merged tree of a method and its rules. -/
structure PerMethod.Merged (perMethod : PerMethod H) (registered : List (Rule H)) : Prop where
  rules : perMethod.rules = none :: none :: registered.map some
  entries : perMethod.trie.head.rules.Perm (entriesOf registered)
  below : perMethod.trie.head.Below Node.HasPieces

/-- What `validate` leaves of the rules of each method. -/
theorem Router.merged_of_validate {allRules : List (Rule H)} {router : Router H}
    (hNul : ∀ rule ∈ allRules, 0 ∉ rule.rule) (hRoom : allRules.length + 2 ≤ 2 ^ 16)
    (hValidate : Router.validate allRules = .ok router) (method : HTTPMethod) :
    (router method).Merged (rulesFor allRules method) := by
  rw [Router.validate] at hValidate
  cases hAll : allRules.foldlM Router.internalAddRuleObject (fun _ => {}) with
  | error failure =>
      rw [hAll] at hValidate
      cases hValidate
  | ok built =>
      rw [hAll] at hValidate
      have hHolds : (built method).Holds ([] ++ rulesFor allRules method) := by
        refine PerMethod.holds_nil.foldlM (fun rule hMem => ?_) ?_
          (foldlM_internalAddRuleObject hAll method)
        · exact hNul rule (List.mem_filter.mp hMem).1
        · have hLength := List.length_filter_le
            (fun rule : Rule H => decide (method ∈ foreachMethod rule.methods)) allRules
          rw [List.nil_append, rulesFor]
          omega
      replace hValidate : updateEach (fun _ perMethod => perMethod.validate) HTTPMethod.all built =
        .ok router := hValidate
      obtain ⟨hTrees, -⟩ := (updateEach_eq_ok_iff HTTPMethod.nodup_all).mp hValidate
      have hTree : (built method).validate = .ok (router method) := hTrees method method.mem_all
      rw [PerMethod.validate, Trie.validate] at hTree
      split_ifs at hTree with hSimple
      · obtain hRouter := Except.ok.inj hTree
        obtain ⟨hRules, hBelow⟩ := hHolds.trie.optimize
        rw [← hRouter]
        exact ⟨hHolds.rules, hRules, hBelow⟩
      · cases hTree

end Rules

/-! ## The URLs of rules -/

/-- Characters in front of a URL are pieces of their own. -/
theorem pieces_append_of_notMem {first : Bytes} (hOpen : 60 ∉ first) (url : Bytes) :
    pieces (first ++ url) = (pieces url).map (first.map Piece.char ++ ·) := by
  induction first with
  | nil =>
      show pieces url = (pieces url).map fun way => [] ++ way
      simp
  | cons c first ih =>
      have hHead : c ≠ 60 := fun hEq => hOpen (hEq ▸ List.mem_cons_self)
      have hTail : 60 ∉ first := fun hMem => hOpen (List.mem_cons_of_mem c hMem)
      rw [pieces, List.cons_append, piecesFrom, if_neg hHead]
      rw [pieces] at ih
      rw [ih hTail, pieces, Option.map_map]
      rfl

section Urls

variable {δ : Type} (strtod : Bytes → Option (δ × Nat))

/-- A rule without parameters matches its own URL. -/
theorem matchUrl_plain {rule : Bytes} (hOpen : 60 ∉ rule) (url : Bytes)
    (params : RoutingParams δ) :
    matchUrl strtod rule url = some params ↔ url = rule ∧ params = {} := by
  have hPieces : pieces rule = some (rule.map Piece.char) := by
    simpa [pieces, piecesFrom] using pieces_append_of_notMem hOpen []
  rw [matchUrl, hPieces, Option.bind_some, matchPieces_plain]
  split_ifs with hUrl
  · simp [hUrl, eq_comm]
  · simp [hUrl]

/-- A rule that ends in a path matches what is longer than the part in front. -/
theorem matchUrl_path {first : Bytes} (hOpen : 60 ∉ first) (url : Bytes)
    (params : RoutingParams δ) :
    matchUrl strtod (first ++ ascii "<path>") url = some params ↔
      ∃ path ≠ [], url = first ++ path ∧ params = { stringParams := [path] } := by
  have hPieces : pieces (first ++ ascii "<path>") =
      some (first.map Piece.char ++ [Piece.param .path]) := by
    have hPath : pieces (ascii "<path>") = some [Piece.param .path] := by decide
    rw [pieces_append_of_notMem hOpen, hPath, Option.map_some]
  have hRest : ∀ rest, matchPieces strtod [Piece.param .path] {} rest =
      if rest = [] then none else some { stringParams := [rest] } := by
    intro rest
    cases rest <;> simp [matchPieces, ParamType.read, RoutingParams.push]
  rw [matchUrl, hPieces, Option.bind_some, matchPieces_chars]
  split_ifs with hPrefix
  · obtain ⟨path, rfl⟩ := List.isPrefixOf_iff_prefix.mp hPrefix
    rw [List.drop_left, hRest]
    split_ifs with hNil
    · simp [hNil]
    · simp [hNil, eq_comm]
  · refine iff_of_false (by simp) ?_
    rintro ⟨path, -, rfl, -⟩
    exact hPrefix (List.isPrefixOf_iff_prefix.mpr (List.prefix_append first path))

end Urls

/-! ## The choice -/

section Choice

variable {H δ : Type} (strtod : Bytes → Option (δ × Nat)) {registered : List (Rule H)}

/-- A rule without its trailing slash matches if the tree holds a redirection that does. -/
theorem redirects_iff (url : Bytes) :
    redirects strtod registered url = true ↔
      ∃ way, (way, ruleSpecialRedirectSlash) ∈ entriesOf registered ∧
        (matchPieces strtod way {} url).isSome = true := by
  have hTwo : ¬ 2 ≤ ruleSpecialRedirectSlash := by decide
  simp only [redirects, List.any_eq_true, Option.any_eq_true, mem_entriesOf, hTwo, false_and, or_false,
    true_and]
  constructor
  · rintro ⟨rule, hMem, slashless, hSlash, hMatch⟩
    cases hPieces : pieces slashless with
    | none => simp [matchUrl, hPieces] at hMatch
    | some way =>
        refine ⟨way, ⟨rule, hMem, slashless, hSlash, hPieces⟩, ?_⟩
        simpa [matchUrl, hPieces] using hMatch
  · rintro ⟨way, ⟨rule, hMem, slashless, hSlash, hPieces⟩, hMatch⟩
    refine ⟨rule, hMem, slashless, hSlash, ?_⟩
    simpa [matchUrl, hPieces] using hMatch

/-- A rule that matches is in the tree, under its place among the rules. -/
theorem mem_entriesOf_of_match {k : Nat} {rule : Rule H} (hRule : registered[k]? = some rule)
    {url : Bytes} {params : RoutingParams δ} (hMatch : matchUrl strtod rule.rule url = some params) :
    ∃ way, (way, k + 2) ∈ entriesOf registered ∧ matchPieces strtod way {} url = some params := by
  obtain ⟨way, hPieces, hWay⟩ := Option.bind_eq_some_iff.mp hMatch
  exact ⟨way, mem_entriesOf.mpr (.inr ⟨by omega, rule, by simpa using hRule, hPieces⟩), hWay⟩

/-- Without a redirection the first rule that matches is chosen. -/
theorem chosen_of_first {url : Bytes} (host : Bytes) {k : Nat} {rule : Rule H}
    {params : RoutingParams δ}
    (hSlash : ¬ redirects strtod registered url = true)
    (hRule : registered[k]? = some rule) (hMatch : matchUrl strtod rule.rule url = some params)
    (hFirst : ∀ j < k, ∀ other, registered[j]? = some other →
      matchUrl strtod other.rule url = none) :
    chosen strtod registered url host = some (.call rule.handler params) := by
  obtain ⟨hLess, hGet⟩ := List.getElem?_eq_some_iff.mp hRule
  rw [chosen, if_neg hSlash, List.findSome?_eq_some_iff]
  refine ⟨registered.take k, rule, registered.drop (k + 1), ?_, by rw [hMatch]; rfl, ?_⟩
  · rw [← hGet, List.cons_getElem_drop_succ, List.take_append_drop]
  · intro other hMem
    obtain ⟨j, hJ, hOther⟩ := List.mem_take_iff_getElem.mp hMem
    have hNone := hFirst j (by omega) other (List.getElem?_eq_some_iff.mpr ⟨by omega, hOther⟩)
    rw [hNone]
    rfl

/-- If nothing in the tree matches, no rule does. -/
theorem chosen_eq_none {url : Bytes} (host : Bytes)
    (hAll : ∀ entry ∈ entriesOf registered, matchPieces strtod entry.1 {} url = none) :
    chosen strtod registered url host = none := by
  have hSlash : ¬ redirects strtod registered url = true := by
    rw [redirects_iff]
    rintro ⟨way, hWay, hSome⟩
    rw [hAll _ hWay] at hSome
    cases hSome
  rw [chosen, if_neg hSlash, List.findSome?_eq_none_iff]
  intro rule hRule
  obtain ⟨k, hGet⟩ := List.getElem?_of_mem hRule
  cases hParams : matchUrl strtod rule.rule url with
  | none => rfl
  | some params =>
      obtain ⟨way, hWay, hSome⟩ := mem_entriesOf_of_match strtod hGet hParams
      rw [hAll _ hWay] at hSome
      cases hSome

/-- The least index that matches is a redirection or leads to the first rule. -/
theorem chosen_of_least {url : Bytes} (host : Bytes) {way : List Piece} {ruleIndex : Nat}
    {params : RoutingParams δ} (hNonzero : ruleIndex ≠ 0)
    (hMem : (way, ruleIndex) ∈ entriesOf registered)
    (hMatch : matchPieces strtod way {} url = some params)
    (hLeast : ∀ other ∈ entriesOf registered,
      (matchPieces strtod other.1 {} url).isSome = true → ruleIndex ≤ other.2) :
    (ruleIndex = ruleSpecialRedirectSlash ∧
        chosen strtod registered url host = some (.redirect (slashLocation url host))) ∨
      2 ≤ ruleIndex ∧ ∃ rule, registered[ruleIndex - 2]? = some rule ∧
        chosen strtod registered url host = some (.call rule.handler params) := by
  by_cases hSlash : redirects strtod registered url = true
  · obtain ⟨other, hOther, hSome⟩ := (redirects_iff strtod url).mp hSlash
    have hLe : ruleIndex ≤ ruleSpecialRedirectSlash := hLeast _ hOther hSome
    refine .inl ⟨?_, if_pos hSlash⟩
    rw [ruleSpecialRedirectSlash] at hLe ⊢
    omega
  · rcases mem_entriesOf.mp hMem with ⟨rfl, -⟩ | ⟨hTwo, rule, hRule, hPieces⟩
    · exact absurd ((redirects_iff strtod url).mpr ⟨way, hMem, by rw [hMatch]; rfl⟩) hSlash
    · refine .inr ⟨hTwo, rule, hRule, ?_⟩
      refine chosen_of_first strtod host hSlash hRule (by rw [matchUrl, hPieces]; exact hMatch) ?_
      intro j hLess other hOther
      cases hParams : matchUrl strtod other.rule url with
      | none => rfl
      | some found =>
          obtain ⟨earlier, hEarlier, hSome⟩ := mem_entriesOf_of_match strtod hOther hParams
          have hLe : ruleIndex ≤ j + 2 := hLeast _ hEarlier (by rw [hSome]; rfl)
          omega

/-- What the merged tree of a method finds is what its rules say one after the other. -/
theorem PerMethod.Merged.finds_chosen {router : Router H} {method : HTTPMethod}
    (hMerged : (router method).Merged registered) (url host : Bytes) :
    match chosen strtod registered url host with
    | none => (router.findIn strtod method url).ruleIndex = 0
    | some handled =>
        (router.findIn strtod method url).ruleIndex ≠ 0 ∧
          router.handle method (router.findIn strtod method url) url host = handled := by
  obtain ⟨hRules, hEntries, hBelow⟩ := hMerged
  rw [Router.findIn, Router.handle, hRules]
  rcases Trie.find_cases strtod hBelow url with ⟨hNone, hAll⟩ | ⟨entry, hMem, hMatch, hIndex, hLeast⟩
  · rw [chosen_eq_none strtod host fun entry hEntry => hAll entry (hEntries.mem_iff.mpr hEntry),
      hNone]
  · obtain ⟨way, ruleIndex⟩ := entry
    have hNonzero : ruleIndex ≠ 0 := Node.index_ne_zero _ _ hMem
    simp only at hMatch hIndex hLeast
    rw [← hIndex]
    rcases chosen_of_least strtod host hNonzero (hEntries.mem_iff.mp hMem) hMatch
      fun other hOther => hLeast other (hEntries.mem_iff.mpr hOther) with
      ⟨rfl, hChosen⟩ | ⟨hTwo, rule, hRule, hChosen⟩
    · rw [hChosen]
      refine ⟨hNonzero, ?_⟩
      rw [if_neg (by simp [ruleSpecialRedirectSlash])]
      exact if_pos rfl
    · rw [hChosen]
      obtain ⟨hLess, -⟩ := List.getElem?_eq_some_iff.mp hRule
      obtain ⟨k, rfl⟩ := Nat.exists_eq_add_of_le' hTwo
      have hGet : (none :: none :: registered.map some)[k + 2]? = some (some rule) := by
        simpa using hRule
      refine ⟨hNonzero, ?_⟩
      rw [if_neg (by simpa using hLess), if_neg (by simp [ruleSpecialRedirectSlash]), hGet]

/-- Of the rules of a method the router takes the first that the URL matches, but a redirection to
a trailing slash in front of all of them. -/
theorem first_rule_handles {allRules : List (Rule H)} {router : Router H}
    (hNul : ∀ rule ∈ allRules, 0 ∉ rule.rule) (hRoom : allRules.length + 2 ≤ 2 ^ 16)
    (hValidate : Router.validate allRules = .ok router) (method : HTTPMethod)
    (url host : Bytes) :
    match chosen strtod (rulesFor allRules method) url host with
    | none => (router.findIn strtod method url).ruleIndex = 0
    | some handled =>
        (router.findIn strtod method url).ruleIndex ≠ 0 ∧
          router.handle method (router.findIn strtod method url) url host = handled := by
  have hMerged := Router.merged_of_validate hNul hRoom hValidate method
  exact hMerged.finds_chosen strtod url host

end Choice

section Replies

variable {H δ : Type} (strtod : Bytes → Option (δ × Nat)) (router : Router H)

/-- The reply to a request with one of the usual methods. -/
theorem handleFull_of_usual {method : HTTPMethod} (hHead : method ≠ .head)
    (hOptions : method ≠ .options) (url host : Bytes) :
    router.handleFull strtod method url host =
      if (router.findIn strtod method url).ruleIndex ≠ 0 then
        .handled (router.handle method (router.findIn strtod method url) url host) false
      else if HTTPMethod.all.any fun other => (router.findIn strtod other url).ruleIndex ≠ 0 then
        .ended 405 none
      else .ended 404 none := by
  have hInitial : router.handleInitial strtod method url =
      if (router.findIn strtod method url).ruleIndex ≠ 0 then
        .found method (router.findIn strtod method url) false
      else if HTTPMethod.all.any fun other => (router.findIn strtod other url).ruleIndex ≠ 0 then
        .ended 405 none
      else .ended 404 none := by
    cases method <;> first | rfl | contradiction
  rw [Router.handleFull, hInitial]
  split_ifs <;> rfl

/-- A HEAD request without a rule of its own is answered by the rule for GET. -/
theorem handleFull_head (url host : Bytes)
    (hNone : (router.findIn strtod .head url).ruleIndex = 0) :
    router.handleFull strtod .head url host =
      if (router.findIn strtod .get url).ruleIndex ≠ 0 then
        .handled (router.handle .get (router.findIn strtod .get url) url host) true
      else .ended 404 none := by
  rw [Router.handleFull, Router.handleInitial]
  simp only [hNone, ne_eq, not_true_eq_false, if_false]
  split_ifs <;> rfl

/-- The reply to an OPTIONS request. -/
theorem handleFull_options (url host : Bytes) :
    ((url = ascii "/*" ∨ ∃ other, (router.findIn strtod other url).ruleIndex ≠ 0) ∧
        ∃ allow, router.handleFull strtod .options url host = .ended 204 (some allow)) ∨
      url ≠ ascii "/*" ∧ (∀ other, (router.findIn strtod other url).ruleIndex = 0) ∧
        router.handleFull strtod .options url host = .ended 404 none := by
  rw [Router.handleFull, Router.handleInitial]
  by_cases hStar : url = ascii "/*"
  · exact .inl ⟨.inl hStar, _, by rw [if_pos hStar]⟩
  · dsimp only
    rw [if_neg hStar]
    by_cases hMatched : (HTTPMethod.all.filter fun other =>
        (router.findIn strtod other url).ruleIndex ≠ 0) = []
    · refine .inr ⟨hStar, fun other => ?_, by rw [if_neg (not_not.mpr hMatched)]⟩
      simpa using List.filter_eq_nil_iff.mp hMatched other other.mem_all
    · obtain ⟨other, hOther⟩ := List.exists_mem_of_ne_nil _ hMatched
      have hFound := of_decide_eq_true (List.mem_filter.mp hOther).2
      exact .inl ⟨.inr ⟨other, hFound⟩, _, by rw [if_pos hMatched]⟩

end Replies

/-- Rules whose URLs overlap. -/
def overlappingRules : List (Rule Nat) :=
  [{ rule := ascii "/a/<str>", handler := 1 }, { rule := ascii "/<path>", handler := 2 },
    { rule := ascii "/dir/", handler := 3 }]

/-- The first rule that matches handles the request, and the redirection goes in front. -/
theorem overlapping_rules_handled :
    ∃ router : Router Nat, Router.validate overlappingRules = .ok router ∧
      router.handle .get (router.findIn (fun _ => (none : Option (Nat × Nat))) .get (ascii "/a/b"))
        (ascii "/a/b") [] = .call 1 { stringParams := [ascii "b"] } ∧
      router.handle .get (router.findIn (fun _ => (none : Option (Nat × Nat))) .get (ascii "/dir"))
        (ascii "/dir") [] = .redirect (ascii "/dir/") := by
  have hValid : (Router.validate overlappingRules).toBool = true := by decide +kernel
  have hNul : ∀ rule ∈ overlappingRules, 0 ∉ rule.rule := by decide +kernel
  have hLeaf : chosen (fun _ => (none : Option (Nat × Nat))) (rulesFor overlappingRules .get)
      (ascii "/a/b") [] = some (.call 1 { stringParams := [ascii "b"] }) := by decide +kernel
  have hDir : chosen (fun _ => (none : Option (Nat × Nat))) (rulesFor overlappingRules .get)
      (ascii "/dir") [] = some (.redirect (ascii "/dir/")) := by decide +kernel
  cases hRouter : Router.validate overlappingRules with
  | error failure =>
      rw [hRouter] at hValid
      cases hValid
  | ok router =>
      have hFirst := first_rule_handles (fun _ => (none : Option (Nat × Nat))) hNul (by decide)
        hRouter .get (ascii "/a/b") []
      have hSecond := first_rule_handles (fun _ => (none : Option (Nat × Nat))) hNul (by decide)
        hRouter .get (ascii "/dir") []
      rw [hLeaf] at hFirst
      rw [hDir] at hSecond
      exact ⟨router, rfl, hFirst.2, hSecond.2⟩

end Crow
end AzsServer
