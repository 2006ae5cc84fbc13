import ZilkerSdk.Lib.Run
import ZilkerSdk.Util.StringUtils

/-!
# The URI dispatcher

Model of `libs/url/c/src/uriDispatcher.c`: handlers are registered for templates such as
`/icontrol/sites/[siteId]/network`, and kept in a trie with one node for each segment.
The variable child of a node, if there is one, is its first child.

The source walks down the trie and changes it on the way.  Here the walk returns the
changed node, also when the registration fails.  A variable whose name does not fit
its buffer overwrites the stack; the walk has no result then.

A directive is registered under its name once, so its name stands for it.  The number of
nodes, which nothing reads, is left out.
-/

namespace ZilkerSdk.Url

open Lib Types Util

variable {η : Type*}

/-! ## The trie -/

inductive TrieVarType where
  | none
  | basic
  | directive
  deriving DecidableEq

structure TrieNode (η : Type*) where
  label : CString
  varType : TrieVarType
  directive : Option CString
  children : List (TrieNode η)
  handler : Option η
  handlerDesc : Option CString

/-- A directive formats the text of a variable, or fails. -/
abbrev Directive := CString → Option CString

structure UriDispatcher (η : Type*) where
  head : TrieNode η
  variableDirectives : IcHashMap CString Directive

structure UriHandlerContainer (η : Type*) where
  handler : η
  description : Option CString
  deriving DecidableEq

inductive AddResult where
  | addOk
  | invalid
  | dupVar
  | dupHandler
  | unknownDirective
  deriving DecidableEq

def createNode (name : CString) : TrieNode η where
  label := name
  varType := .none
  directive := none
  children := []
  handler := none
  handlerDesc := none

def searchListByName (searchName : CString) (node : TrieNode η) : Bool :=
  stringCompare (some searchName) (some node.label) true = 0

def findChildTrieNode (node : TrieNode η) (name : CString) : Option (TrieNode η) :=
  node.children.find? (searchListByName name)

def getNodeVarChild (node : TrieNode η) : Option (TrieNode η) :=
  match node.children with
  | first :: _ => if first.varType ≠ .none then some first else none
  | [] => none

/-- The list after the first item with the property was changed. -/
def replaceFirst {α : Type*} (p : α → Bool) (a : α) : List α → List α
  | [] => []
  | b :: l => if p b then a :: l else b :: replaceFirst p a l

/-! ## Segments -/

/-- What successive calls of `strtok_r` return; `token` is what was read of the next one. -/
def strtokFrom (sep : Char) (token : CString) : CString → List CString
  | [] => if token = [] then [] else [token]
  | c :: text =>
    if c = sep then
      if token = [] then strtokFrom sep [] text else token :: strtokFrom sep [] text
    else strtokFrom sep (token ++ [c]) text

/-- The segments of a template or URI. -/
def segments (uri : CString) : List CString := strtokFrom '/' [] uri

theorem ne_nil_of_mem_strtokFrom {sep : Char} {token text tok : CString}
    (h : tok ∈ strtokFrom sep token text) : tok ≠ [] := by
  fun_induction strtokFrom sep token text with
  | case1 => cases h
  | case2 token htoken =>
    rw [List.mem_singleton.mp h]
    exact htoken
  | case3 _ ih | case5 _ _ _ _ ih => exact ih h
  | case4 token _ htoken ih =>
    obtain rfl | hrest := List.mem_cons.mp h
    · exact htoken
    · exact ih hrest

theorem ne_nil_of_mem_segments {uri tok : CString} (h : tok ∈ segments uri) : tok ≠ [] :=
  ne_nil_of_mem_strtokFrom h

def isVariable (tok : CString) : Bool :=
  tok.head? = some '[' && tok.getLast? = some ']'

/-- The text between the brackets. -/
def variableName (tok : CString) : CString := tok.tail.dropLast

/-- The size of the buffer for `variableName`. -/
def varNameSize : Nat := 64

/-- The name and the directive of a variable. -/
def parseVariable (directives : IcHashMap CString Directive) (varName : CString) :
    Except AddResult (CString × Option CString) :=
  match varName.dropWhile (· ≠ '#') with
  | [] => .ok (varName, none)
  | _ :: directiveName =>
    if hashMapContains directives directiveName then
      .ok (varName.takeWhile (· ≠ '#'), some directiveName)
    else .error .unknownDirective

/-! ## Registration -/

/-- The node of a new variable. -/
def createVarNode (varName : CString) (directive : Option CString) : TrieNode η :=
  { createNode varName with
    varType := if directive.isSome then .directive else .basic
    directive := directive }

/-- Save the handler at the end of the path. -/
def setHandler (node : TrieNode η) (container : UriHandlerContainer η) : TrieNode η × AddResult :=
  match node.handler with
  | some _ => (node, .dupHandler)
  | none =>
    ({ node with
        handler := some container.handler
        handlerDesc := container.description <|> node.handlerDesc }, .addOk)

/-- The loop of `registerUriHandler`. -/
def registerFrom (directives : IcHashMap CString Directive) (container : UriHandlerContainer η) :
    List CString → TrieNode η → Option (TrieNode η × AddResult)
  | [], node => some (setHandler node container)
  | tok :: toks, node =>
    if tok = [] then some (node, .invalid)
    else if isVariable tok then
      if varNameSize ≤ (variableName tok).length then none
      else
        match parseVariable directives (variableName tok) with
        | .error result => some (node, result)
        | .ok (varName, directive) =>
          match getNodeVarChild node with
          | some varNode =>
            if stringCompare (some varName) (some varNode.label) true = 0 ∧
                varNode.directive = directive then
              (registerFrom directives container toks varNode).map fun r =>
                ({ node with children := r.1 :: node.children.tail }, r.2)
            else some (node, .dupVar)
          | none =>
            (registerFrom directives container toks (createVarNode varName directive)).map fun r =>
              ({ node with children := r.1 :: node.children }, r.2)
    else
      match findChildTrieNode node tok with
      | some child =>
        (registerFrom directives container toks child).map fun r =>
          ({ node with children := replaceFirst (searchListByName tok) r.1 node.children }, r.2)
      | none =>
        (registerFrom directives container toks (createNode tok)).map fun r =>
          ({ node with children := node.children ++ [r.1] }, r.2)

def registerUriHandler (dispatcher : UriDispatcher η) (uriTemplate : CString)
    (container : UriHandlerContainer η) : Option (UriDispatcher η × AddResult) :=
  (registerFrom dispatcher.variableDirectives container (segments uriTemplate)
    dispatcher.head).map fun r => ({ dispatcher with head := r.1 }, r.2)

/-! ## Lookup -/

abbrev ValuesMap := IcHashMap Key CString

def stringHashMapPut (map : ValuesMap) (key value : CString) : ValuesMap :=
  (hashMapPut map (stringKey key) value).1

/-- Put the segment into the map as the value of the variable. -/
def putVariable (directives : IcHashMap CString Directive) (node : TrieNode η) (tok : CString)
    (valuesMap : ValuesMap) : ValuesMap :=
  match node.varType with
  | .none => valuesMap
  | .basic => stringHashMapPut valuesMap node.label tok
  | .directive =>
    match (node.directive.bind (hashMapGet directives)).bind fun handler => handler tok with
    | some value => stringHashMapPut valuesMap node.label value
    | none => stringHashMapPut valuesMap node.label tok

/-- The loop of `locateUriHandler`. -/
def locateFrom (directives : IcHashMap CString Directive) :
    List CString → TrieNode η → ValuesMap → Option (TrieNode η) × ValuesMap
  | [], node, valuesMap => (some node, valuesMap)
  | tok :: toks, node, valuesMap =>
    if tok = [] then (none, valuesMap)
    else
      match findChildTrieNode node tok with
      | some child => locateFrom directives toks child valuesMap
      | none =>
        match getNodeVarChild node with
        | some varNode =>
          locateFrom directives toks varNode (putVariable directives varNode tok valuesMap)
        | none => (none, valuesMap)

/-- The handler of a node with its description. -/
def TrieNode.container (node : TrieNode η) : Option (UriHandlerContainer η) :=
  node.handler.map fun handler => ⟨handler, node.handlerDesc⟩

def locateUriHandler (dispatcher : UriDispatcher η) (uri : CString) (valuesMap : ValuesMap) :
    Option (UriHandlerContainer η) × ValuesMap :=
  let found := locateFrom dispatcher.variableDirectives (segments uri) dispatcher.head valuesMap
  (found.1.bind TrieNode.container, found.2)

end ZilkerSdk.Url
