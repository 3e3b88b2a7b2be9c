import RequestFilter.Http.EntryList
import RequestFilter.Http.Form
import RequestFilter.Http.MediaType
import RequestFilter.Http.Target
import RequestFilter.Plan

namespace RequestFilter

structure Request where
  target : Target
  contentType : Option (List Char)
  body : List Char

namespace BodyFault

def status : BodyFault → Nat
  | mediaType => 415
  | syntaxError => 400
  | shape => 422

def message : BodyFault → String
  | mediaType => "Expected request with `Content-Type: application/json`"
  | syntaxError => "Failed to parse the request body as JSON"
  | shape => "Failed to deserialize the JSON body into the target type"

end BodyFault

inductive RejectionCause where
  | body (fault : BodyFault)
  | filter (failure : Failure)
  deriving DecidableEq, Repr

structure Rejection where
  path : String
  cause : RejectionCause
  deriving DecidableEq, Repr

namespace Rejection

def status (rejection : Rejection) : Nat :=
  match rejection.cause with
  | .body fault => fault.status
  | .filter failure => failure.blame.status

def display (rejection : Rejection) : String :=
  match rejection.cause with
  | .body fault => "invalid filter body: " ++ fault.message
  | .filter failure => failure.display

def message (rejection : Rejection) : String :=
  match rejection.cause with
  | .body _ => rejection.display
  | .filter failure => failure.message

def errors (rejection : Rejection) : FieldMessages :=
  match rejection.cause with
  | .body _ => []
  | .filter failure => failure.errors

end Rejection

structure Extract where
  criteria : List Criterion
  sort : SortOrder
  path : String
  deriving DecidableEq, Repr

structure Service where
  engine : Engine
  policies : KeyedList String Policy

namespace Service

def ofEngine (engine : Engine) : Service := ⟨engine, []⟩

def withPolicy (service : Service) (policy : Policy) : Service :=
  { service with policies := service.policies.put policy.root policy }

def policy? (service : Service) (root : String) : Option Policy := service.policies.get? root

def extractQuery (service : Service) (request : Request) : Extract :=
  let pairs := Form.pairs request.target.query
  let settings := service.engine.settings
  ⟨settings.criteriaOfQuery pairs, settings.sortOfQuery pairs, String.ofList request.target.path⟩

def entries (request : Request) : Except BodyFault (List Entry) :=
  if (request.contentType.bind MediaType.read?).any MediaType.isJson then
    EntryList.read request.body
  else .error .mediaType

def extractBody (service : Service) (request : Request) : Except Rejection Extract :=
  let path := String.ofList request.target.path
  match entries request with
  | .ok entries => .ok ⟨service.engine.settings.criteriaOfEntries entries, [], path⟩
  | .error fault => .error ⟨path, .body fault⟩

def unknownRoot (root : String) : Failure :=
  .ofCode .misconfigured ("No filter context registered for `" ++ root ++ "`")

def plan (service : Service) (root : String) (extract : Extract) : Except Rejection Plan :=
  let planned := match service.policy? root with
    | some policy => service.engine.plan policy extract.criteria extract.sort
    | none => .error (unknownRoot root)
  match planned with
  | .ok plan => .ok plan
  | .error failure => .error ⟨extract.path, .filter failure⟩

end Service

end RequestFilter
