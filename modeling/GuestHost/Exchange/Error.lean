/-!
# Errors of exchange buffers
-/

namespace GuestHost

namespace Exchange

/-- The four kinds of exchange buffer. -/
inductive Kind where
  | memory
  | request
  | response
  | socket
  deriving DecidableEq

/-- The name of a kind. -/
def Kind.text : Kind → String
  | memory => "memory"
  | request => "request"
  | response => "response"
  | socket => "socket"

/-- The operations that some kind of buffer does not support. -/
inductive Operation where
  | headersCount
  | headers
  | statusCode
  | writeStatusCode
  | buffer
  | write
  deriving DecidableEq

/-- The name of an operation. -/
def Operation.text : Operation → String
  | headersCount => "headers_count"
  | headers => "headers"
  | statusCode => "status_code"
  | writeStatusCode => "write_status_code"
  | buffer => "buffer"
  | write => "write"

/-- Why a buffer's transport failed. -/
inductive Fault where
  | headerName
  | headerValue
  | body
  deriving DecidableEq

/-- The words for a fault. -/
def Fault.text : Fault → String
  | headerName => "invalid HTTP header name"
  | headerValue => "failed to parse header value"
  | body => "body broke"

/-- Why an operation on an exchange buffer failed. -/
inductive Error where
  | unsupported (kind : Kind) (operation : Operation)
  | unknownHandle (handle : Nat)
  | invalidStatus (status : Nat)
  | closed
  | io (fault : Fault)
  /-- There is no room for another header. No caller gets to see this: the operation panics. -/
  | overfull
  deriving DecidableEq

/-- The words for an error. -/
def Error.message : Error → String
  | unsupported kind operation =>
    operation.text ++ " is not supported by " ++ kind.text ++ " exchange buffers"
  | unknownHandle handle => "unknown exchange buffer handle: " ++ toString handle
  | invalidStatus status => "invalid status code: " ++ toString status
  | closed => "exchange buffer closed"
  | io fault => "io error: " ++ fault.text
  | overfull => "size overflows MAX_SIZE"

end Exchange

end GuestHost
