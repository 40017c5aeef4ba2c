import ResponseCache.Http.Message

/-!
This module contains the keys under which responses are stored. A key has a base, made of method and
target, and a component for each header field on which the route's responses depend.
-/

namespace ResponseCache

open Text (splitOn splitOnce decimal)

def cacheableMethods : List String :=
  ["GET", "HEAD"]

def Request.isCacheable (r : Request) : Bool :=
  cacheableMethods.contains r.method

/-- The name of a query pair: its text before the first equals sign. -/
def pairName (pair : List Char) : List Char :=
  match splitOnce '=' pair with
  | some (name, _) => name
  | none => pair

/-- The pairs of a query in order, without the empty ones. -/
def queryPairs (query : List Char) : List (List Char) :=
  (splitOn '&' query).filter fun pair => !pair.isEmpty

/-- Whether a text comes before another in the order of their code points. -/
def textBefore : List Char → List Char → Bool
  | [], [] => false
  | [], _ :: _ => true
  | _ :: _, [] => false
  | a :: as, b :: bs => a.toNat < b.toNat || (a = b && textBefore as bs)

/-- Puts a pair in front of the first one whose name does not come before its own. -/
def insertPair (pair : List Char) : List (List Char) → List (List Char)
  | [] => [pair]
  | head :: pairs =>
    if textBefore (pairName head) (pairName pair) then
      head :: insertPair pair pairs
    else
      pair :: head :: pairs

/-- The pairs in the order of their names. Pairs of one name keep their order. -/
def sortPairs : List (List Char) → List (List Char)
  | [] => []
  | pair :: pairs => insertPair pair (sortPairs pairs)

/-- The query with its pairs in order, if it is there and not empty. -/
def normalQuery (query : Option (List Char)) : Option (List Char) :=
  (query.filter fun q => !q.isEmpty).map fun q => List.intercalate ['&'] (sortPairs (queryPairs q))

def pathWithQuery (path : List Char) : Option (List Char) → List Char
  | some query => path ++ '?' :: query
  | none => path

inductive BaseKey where
  /-- The method, the path, and the query with its pairs in order. -/
  | methodPathAndQuery
  /-- The path and the query as it is. -/
  | pathAndQuery
  | path
  /-- The same base for all requests, or no key for any. -/
  | constant (base : Option String)
  /-- A base of the route's own making. -/
  | custom (base : Request → Option String)

namespace BaseKey

/-- The base that a request gets, if it is cached at all. -/
def extract (b : BaseKey) (r : Request) : Option (List Char) :=
  match b with
  | methodPathAndQuery =>
    if r.isCacheable then
      some (r.method.toList ++ ' ' :: pathWithQuery r.target.path (normalQuery r.target.query))
    else
      none
  | pathAndQuery =>
    if r.isCacheable then some (pathWithQuery r.target.path r.target.query) else none
  | path => if r.isCacheable then some r.target.path else none
  | constant base => base.map String.toList
  | custom base => (base r).map String.toList

end BaseKey

structure KeyExtractor where
  base : BaseKey
  /-- The names of the header fields that make components, in lower case, ascending. -/
  names : List String

namespace KeyExtractor

/-- Puts a name into ascending ones, unless it is one of them. -/
def insertName (name : String) : List String → List String
  | [] => [name]
  | head :: names =>
    if textBefore name.toList head.toList then name :: head :: names
    else if name = head then head :: names
    else head :: insertName name names

/-- The extractor whose keys have components for the given header fields only. -/
def withHeaders (k : KeyExtractor) (names : List String) : KeyExtractor :=
  { k with names := (names.map lowerCase).foldr insertName [] }

/-- The extractor for routes that say nothing about it. -/
def standard : KeyExtractor :=
  ⟨.methodPathAndQuery, []⟩

/-- The values of a header field joined by commas, with replacement for bytes that are no text. -/
def headerText (headers : Headers) (name : String) : List Char :=
  List.intercalate [','] ((headers.getAll name).map fun v => Bytes.Utf8.decodeLossy v.bytes)

/-- The component of a header field, which tells the length of the text in it. -/
def component (headers : Headers) (name : String) : List Char :=
  let text := headerText headers name
  '|' :: name.toList ++ '=' :: decimal (Bytes.Utf8.length text) ++ ':' :: text

def extractText (k : KeyExtractor) (r : Request) : Option (List Char) :=
  (k.base.extract r).map (· ++ k.names.flatMap (component r.headers))

def extract (k : KeyExtractor) (r : Request) : Option String :=
  (k.extractText r).map String.ofList

end KeyExtractor

end ResponseCache
