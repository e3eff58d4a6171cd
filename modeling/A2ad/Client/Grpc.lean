/-
gRPC statuses as the HTTP responses the client judges a call by.
-/
import A2ad.Client.Wire

namespace A2ad.Client

open Bytes

/-! ## Statuses -/

inductive StatusCode where
  | ok
  | cancelled
  | unknown
  | invalidArgument
  | deadlineExceeded
  | notFound
  | alreadyExists
  | permissionDenied
  | resourceExhausted
  | failedPrecondition
  | aborted
  | outOfRange
  | unimplemented
  | internal
  | unavailable
  | dataLoss
  | unauthenticated
deriving DecidableEq, Repr

structure GrpcStatus where
  code : StatusCode
  message : Str := []

/-- The HTTP status a code stands for; the two codes without one are failures of the transport. -/
def StatusCode.http : StatusCode → Option Int
  | .ok => some 200
  | .unauthenticated => some 401
  | .permissionDenied => some 403
  | .notFound => some 404
  | .invalidArgument | .failedPrecondition => some 400
  | .unavailable | .deadlineExceeded => none
  | _ => some 500

def fromStatus (st : GrpcStatus) : HttpResponse :=
  match st.code, st.code.http with
  | .ok, some status => { status := status }
  | _, some status => { status := status, body := st.message }
  | _, none => { body := st.message, transportError := true, transportErrorDetail := st.message }

/-! ## Credentials -/

/-- The metadata of a call; the keys of headers are put in lower case. -/
def configureContext (auth : AuthSpec) (version : Str) : List (Str × Str) :=
  (if auth.active && !auth.headerValue.isEmpty then [(lower auth.headerName, auth.headerValue)] else []) ++
    auth.extraHeaders.map (fun h => (lower h.1, h.2)) ++
    (if auth.active && !auth.queryName.isEmpty then [(auth.queryName, auth.queryValue)] else []) ++
    auth.extraQuery ++ [(lit "a2a-version", version)]

/-- The files of the client certificate and its key, unless the channel is a plaintext one. -/
def channelFor (endpoint : Str) (auth : AuthSpec) : Option (Str × Str) :=
  if (lit "http://").isPrefixOf endpoint then none else some (auth.clientCertFile, auth.clientKeyFile)

/-! ## Calls -/

/-- How a call over gRPC ends: its parameters are no message of the protocol and nothing is sent,
or there is a status, with the result's JSON text where it is a success. -/
inductive GrpcOutcome where
  | unencodable (detail : Str)
  | finished (status : GrpcStatus) (result : Except Str Str)

/-- `grpcCall`. -/
def grpcResponse : GrpcOutcome → HttpResponse
  | .unencodable detail => { status := 400, body := lit "cannot encode gRPC request: " ++ detail }
  | .finished st result =>
    if st.code = .ok then
      match result with
      | .ok body => { fromStatus st with body := body }
      | .error detail => { fromStatus st with status := 500, body := lit "cannot decode gRPC response: " ++ detail }
    else fromStatus st

/-- A finished call whose response says 500: a status without a translation, or a result that
cannot be decoded. -/
def GrpcOutcome.internal : GrpcOutcome → Bool
  | .unencodable _ => false
  | .finished st result => st.code.http = some 500 || (st.code = .ok && result.toOption.isNone)

/-- Every response to a call over gRPC is a failure of the transport, a success, a 400, 401, 403 or
404, or an internal one, which says 500. -/
theorem grpcResponse_status (o : GrpcOutcome) :
    (grpcResponse o).transportError = true ∧ o.internal = false ∨
      (grpcResponse o).transportError = false ∧
        if o.internal then (grpcResponse o).status = 500 else (grpcResponse o).status ∈ [200, 400, 401, 403, 404] := by
  cases o with
  | unencodable detail => exact .inr ⟨rfl, by simp [GrpcOutcome.internal, grpcResponse]⟩
  | finished st result =>
    obtain ⟨code, message⟩ := st
    cases code with
    | unavailable | deadlineExceeded => exact .inl ⟨rfl, rfl⟩
    | ok =>
      refine .inr ?_
      cases result with
      | ok body => exact ⟨rfl, by simp [GrpcOutcome.internal, grpcResponse, fromStatus, StatusCode.http, Except.toOption]⟩
      | error detail =>
        exact ⟨rfl, by simp [GrpcOutcome.internal, grpcResponse, StatusCode.http, Except.toOption]⟩
    | _ =>
      refine .inr ⟨rfl, ?_⟩
      simp [GrpcOutcome.internal, grpcResponse, fromStatus, StatusCode.http]

/-- A response over gRPC is never cut short. -/
theorem grpcResponse_size (o : GrpcOutcome) : (grpcResponse o).responseTooLarge = false := by
  cases o with
  | unencodable detail => rfl
  | finished st result =>
    obtain ⟨code, message⟩ := st
    cases code <;> cases result <;> rfl

end A2ad.Client
