import AzsServer.Crow.Trie
import AzsServer.Library.Updates

/-!
# The router: `Router` of `crow/routing.h`

Every HTTP method has rules and a search tree of its own.  `validate` distributes the rules of
the program among them; `handle_initial` looks for the rule of a request as soon as its URL is
known, and `handle` runs the handler.  Blueprints and a catch-all rule are not in use.
-/

namespace AzsServer
namespace Crow

open Library

/-- `HTTPMethod` -/
inductive HTTPMethod where
  | delete | get | head | post | put
  | connect | options | trace
  | patch | purge
  | copy | lock | mkCol | move | propfind | proppatch | search | unlock | bind | rebind
  | unbind | acl
  | report | mkActivity | checkout | merge
  | mSearch | notify | subscribe | unsubscribe
  | mkCalendar
  | link | unlink
  | source
deriving DecidableEq

/-- `method_strings`, with the methods whose numbers are the places. -/
def methodStrings : List (HTTPMethod × String) :=
  [(.delete, "DELETE"), (.get, "GET"), (.head, "HEAD"), (.post, "POST"), (.put, "PUT"),
    (.connect, "CONNECT"), (.options, "OPTIONS"), (.trace, "TRACE"),
    (.patch, "PATCH"), (.purge, "PURGE"),
    (.copy, "COPY"), (.lock, "LOCK"), (.mkCol, "MKCOL"), (.move, "MOVE"),
    (.propfind, "PROPFIND"), (.proppatch, "PROPPATCH"), (.search, "SEARCH"),
    (.unlock, "UNLOCK"), (.bind, "BIND"), (.rebind, "REBIND"), (.unbind, "UNBIND"),
    (.acl, "ACL"),
    (.report, "REPORT"), (.mkActivity, "MKACTIVITY"), (.checkout, "CHECKOUT"),
    (.merge, "MERGE"),
    (.mSearch, "M-SEARCH"), (.notify, "NOTIFY"), (.subscribe, "SUBSCRIBE"),
    (.unsubscribe, "UNSUBSCRIBE"),
    (.mkCalendar, "MKCALENDAR"),
    (.link, "LINK"), (.unlink, "UNLINK"),
    (.source, "SOURCE")]

/-- The methods below `InternalMethodCount`, in the order of their numbers. -/
def HTTPMethod.all : List HTTPMethod := methodStrings.map (·.1)

def HTTPMethod.number (method : HTTPMethod) : Nat := HTTPMethod.all.idxOf method

/-- `method_name` -/
def methodName (method : HTTPMethod) : Bytes :=
  ((methodStrings.find? fun entry => entry.1 = method).map fun entry => ascii entry.2).getD []

/-- The bit of a method in `methods_`. -/
def methodBit (method : HTTPMethod) : BitVec 32 := 1#32 <<< method.number

/-- `BaseRule`, with what its handler is. -/
structure Rule (H : Type) where
  rule : Bytes
  methods : BitVec 32 := methodBit .get
  handler : H

/-- `foreach_method` -/
def foreachMethod (methods : BitVec 32) : List HTTPMethod :=
  HTTPMethod.all.filter fun method => methods.getLsbD method.number

/-- `RULE_SPECIAL_REDIRECT_SLASH` -/
def ruleSpecialRedirectSlash : Nat := 1

/-- `PerMethod`; the first two rules have a special meaning. -/
structure PerMethod (H : Type) where
  rules : List (Option (Rule H)) := [none, none]
  trie : Trie := {}

/-- `per_methods_` -/
abbrev Router (H : Type) := HTTPMethod → PerMethod H

section Rules

variable {H : Type}

/-- The rule without its trailing slash, if it has one. -/
def Rule.withoutTrailingSlash (ruleObject : Rule H) : Option Bytes :=
  if ruleObject.rule.length > 1 ∧ ruleObject.rule.getLast? = some 47 then
    some ruleObject.rule.dropLast
  else none

/-- What `internal_add_rule_object` does for one method; the index is a `uint16_t`. -/
def PerMethod.addRule (perMethod : PerMethod H) (ruleObject : Rule H) :
    Except RuleFailure (PerMethod H) := do
  let rules := perMethod.rules ++ [some ruleObject]
  let trie ← perMethod.trie.add ruleObject.rule ((rules.length - 1) % 2 ^ 16)
  match ruleObject.withoutTrailingSlash with
  | none => return ⟨rules, trie⟩
  | some rule => return ⟨rules, ← trie.add rule ruleSpecialRedirectSlash⟩

/-- `internal_add_rule_object` -/
def Router.internalAddRuleObject (router : Router H) (ruleObject : Rule H) :
    Except RuleFailure (Router H) :=
  updateEach (fun _ perMethod => perMethod.addRule ruleObject) (foreachMethod ruleObject.methods)
    router

def PerMethod.validate (perMethod : PerMethod H) : Except RuleFailure (PerMethod H) := do
  return { perMethod with trie := ← perMethod.trie.validate }

/-- `Router::validate` of a router with these `all_rules_`. -/
def Router.validate (allRules : List (Rule H)) : Except RuleFailure (Router H) := do
  let router ← allRules.foldlM Router.internalAddRuleObject fun _ => {}
  updateEach (fun _ perMethod => perMethod.validate) HTTPMethod.all router

end Rules

section Handling

variable {H δ : Type} (strtod : Bytes → Option (δ × Nat)) (router : Router H)

/-- What `handle_initial` leaves: the method and the rule that are found, or the response that
ends the request, with its code and its `Allow`. -/
inductive InitialResult (δ : Type) where
  | found (method : HTTPMethod) (result : RoutingHandleResult δ) (skipBody : Bool)
  | ended (code : Nat) (allow : Option Bytes)
deriving DecidableEq

/-- The search in the tree of a method. -/
def Router.findIn (method : HTTPMethod) (url : Bytes) : RoutingHandleResult δ :=
  (router method).trie.find strtod url

/-- The methods named in the `Allow` of an answer, besides the first two. -/
def allowText (methods : List HTTPMethod) : Bytes :=
  let allow := ascii "OPTIONS, HEAD, " ++
    (methods.filter fun method => method ≠ .head).flatMap fun method =>
      methodName method ++ ascii ", "
  allow.take (allow.length - 2)

/-- `handle_initial` -/
def Router.handleInitial (method : HTTPMethod) (url : Bytes) : InitialResult δ :=
  match method with
  | .head =>
      let found := router.findIn strtod .head url
      if found.ruleIndex ≠ 0 then .found .head found true
      else
        -- a HEAD request is answered by the rule for GET, without the body
        let found := router.findIn strtod .get url
        if found.ruleIndex ≠ 0 then .found .get found true else .ended 404 none
  | .options =>
      if url = ascii "/*" then
        .ended 204 (some (allowText (HTTPMethod.all.filter fun other =>
          !(router other).trie.isEmpty)))
      else
        let matched := HTTPMethod.all.filter fun other =>
          (router.findIn strtod other url).ruleIndex ≠ 0
        if matched ≠ [] then .ended 204 (some (allowText matched)) else .ended 404 none
  | method =>
      let found := router.findIn strtod method url
      if found.ruleIndex ≠ 0 then .found method found false
      else if HTTPMethod.all.any fun other => (router.findIn strtod other url).ruleIndex ≠ 0 then
        .ended 405 none
      else .ended 404 none

/-- What `handle` does with a rule: an exception, a redirection or the call of a handler. -/
inductive Handled (H δ : Type) where
  | corrupted
  | redirect (location : Bytes)
  | call (handler : H) (params : RoutingParams δ)
deriving DecidableEq

/-- The URL with a trailing slash, absolute if there is a host. -/
def slashLocation (url host : Bytes) : Bytes :=
  if host = [] then url ++ ascii "/" else ascii "http://" ++ host ++ url ++ ascii "/"

/-- `handle`; `host` is the header of the request, empty if there is none. -/
def Router.handle (method : HTTPMethod) (found : RoutingHandleResult δ) (url host : Bytes) :
    Handled H δ :=
  let rules := (router method).rules
  if found.ruleIndex ≥ rules.length then .corrupted
  else if found.ruleIndex = ruleSpecialRedirectSlash then .redirect (slashLocation url host)
  else
    match rules[found.ruleIndex]? with
    | some (some ruleObject) => .call ruleObject.handler found.rParams
    | _ => .corrupted

/-- The way of a request through the router. -/
inductive Reply (H δ : Type) where
  | ended (code : Nat) (allow : Option Bytes)
  | handled (handled : Handled H δ) (skipBody : Bool)
deriving DecidableEq

/-- `handle_full`: `handle` follows where `handle_initial` has found a rule. -/
def Router.handleFull (method : HTTPMethod) (url host : Bytes) : Reply H δ :=
  match router.handleInitial strtod method url with
  | .ended code allow => .ended code allow
  | .found method found skipBody => .handled (router.handle method found url host) skipBody

end Handling

end Crow
end AzsServer
