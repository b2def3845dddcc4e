import ClusterLink.Join.Request
import ClusterLink.Message.Basic
/-!
# Payloads

The body of a control message is read as what its kind stands for; the body of a statement is
carried as it is. A kind and a body are decoded together, and decoding accepts only the bytes that
encoding produces: nothing may be missing, and nothing may follow.
-/

namespace ClusterLink

/-- Why an application gave no answer (`ErrorCode`). -/
inductive FailureCode where
  | handler
  | unsupported
  | malformed
  deriving DecidableEq, Repr

namespace FailureCode

def index : FailureCode → UInt32
  | handler => 0
  | unsupported => 1
  | malformed => 2

def decoder : Decoder FailureCode := do
  let index ← Decoder.uint32
  match [handler, unsupported, malformed].find? (fun c => c.index = index) with
  | some code => return code
  | none => throw (.unknownFailureCode index)

end FailureCode

/-- The body of a message of kind `error` (`ErrorReply`). -/
structure Failure where
  code : FailureCode
  description : String
  deriving DecidableEq, Repr

namespace Failure

def encode (f : Failure) : Bytes := encodeUInt32 f.code.index ++ Encoder.text f.description

def decoder : Decoder Failure := do
  let code ← FailureCode.decoder
  let description ← Decoder.text
  return { code, description }

end Failure

/-- What a message says (`Payload`). -/
inductive Payload where
  | greeting (join : JoinRequest)
  | welcome
  | ping
  | pong
  | failure (failure : Failure)
  | statement (kind : Kind) (body : Bytes)
  deriving DecidableEq, Repr

/-- Why a body does not say what its kind asks for (`PayloadError`). -/
inductive PayloadError where
  | serialize (text : String)
  | deserialize (cause : DecodeError)
  | trailing (kind : Kind) (bytes : Nat)
  | unexpectedBody (kind : Kind) (bytes : Nat)
  | unknown (kind : Kind)
  deriving DecidableEq, Repr

namespace PayloadError

def message : PayloadError → String
  | serialize text => "failed to encode payload: " ++ text
  | deserialize cause => "failed to decode payload: " ++ cause.text
  | trailing kind bytes => toString bytes ++ " trailing bytes after " ++ kind.text ++ " payload"
  | unexpectedBody kind bytes =>
    kind.text ++ " messages carry no body, got " ++ toString bytes ++ " bytes"
  | unknown kind => "message type " ++ kind.text ++ " is not understood"

end PayloadError

namespace Payload

/-- The kind of the frames that carry a payload (`message_type`). -/
def kind : Payload → Kind
  | greeting _ => .greeting
  | welcome => .welcome
  | ping => .ping
  | pong => .pong
  | failure _ => .error
  | statement kind _ => kind

/-- The body of the frame that carries a payload (`encode`). -/
def encode : Payload → Bytes
  | greeting join => join.encode
  | failure f => f.encode
  | welcome | ping | pong => []
  | statement _ body => body

/-- Decodes a value that must take up the whole body (`decode_exact`). -/
def decodeExact {α : Type} (decoder : Decoder α) (kind : Kind) (body : Bytes) :
    Except PayloadError α :=
  match decoder.run body with
  | .error cause => .error (.deserialize cause)
  | .ok (value, []) => .ok value
  | .ok (_, rest) => .error (.trailing kind rest.length)

/-- Accepts no body but the empty one (`empty`). -/
def decodeEmpty (payload : Payload) (body : Bytes) : Except PayloadError Payload :=
  if body = [] then .ok payload else .error (.unexpectedBody payload.kind body.length)

/-- The payload of a frame, by its kind (`decode`). -/
def decode (k : Kind) (body : Bytes) : Except PayloadError Payload :=
  match k with
  | .greeting => greeting <$> decodeExact JoinRequest.decoder k body
  | .error => failure <$> decodeExact Failure.decoder k body
  | .welcome => decodeEmpty welcome body
  | .ping => decodeEmpty ping body
  | .pong => decodeEmpty pong body
  | .unknown _ => .error (.unknown k)
  | _ => .ok (statement k body)

end Payload

namespace Message

/-- The message that says something (`from_payload`). -/
def ofPayload (id : MessageId) (p : Payload) : Except HeaderError Message := make id p.kind p.encode

/-- The answer that says something (`reply_with`). -/
def replyWith (request : Message) (p : Payload) : Except HeaderError Message :=
  request.reply p.kind p.encode

/-- What the message says (`payload`). -/
def payload (m : Message) : Except PayloadError Payload := Payload.decode m.kind m.body

end Message

end ClusterLink
