import StreamFraming.Text.JsonText

/-!
# Anomalies

What a scanner reports about a stream that breaks its protocol. An anomaly is one of three kinds,
perhaps with a detail; each kind has its ids and its message. An anomaly that is raised also goes to
the log, as one line of JSON behind a tag.
-/

namespace StreamFraming

inductive Anomaly.Kind where
  | simpleRequest
  | unboundedPost
  | messageSize
  deriving DecidableEq, Repr

namespace Anomaly.Kind

def label : Kind → String
  | simpleRequest => "simple_request"
  | unboundedPost => "unbounded_post"
  | messageSize => "message_size_exception"

/-- The family of the kind: 119 for the client's side of HTTP, 120 for either side. -/
def generatorId : Kind → Nat
  | simpleRequest | unboundedPost => 119
  | messageSize => 120

def signatureId : Kind → Nat
  | simpleRequest => 32
  | unboundedPost => 35
  | messageSize => 8

def message : Kind → String
  | simpleRequest => "(http_inspect) SIMPLE REQUEST"
  | unboundedPost => "(http_inspect) UNBOUNDED POST WITHOUT CONTENT-LENGTH OR CHUNKS"
  | messageSize => "(http_inspect) MESSAGE WITH INVALID CONTENT-LENGTH OR CHUNK SIZE"

end Anomaly.Kind

structure Anomaly where
  kind : Anomaly.Kind
  detail : Option String := none
  deriving DecidableEq, Repr

namespace Anomaly

def simpleRequest : Anomaly := { kind := .simpleRequest }

def unboundedPost : Anomaly := { kind := .unboundedPost }

def messageSize (detail : String) : Anomaly := { kind := .messageSize, detail := some detail }

def withDetail (a : Anomaly) (detail : String) : Anomaly := { a with detail := some detail }

/-- The report as a JSON object; a detail that is absent is left out. -/
def toJson (a : Anomaly) : String :=
  Text.JsonText.object <|
    [("kind", Text.JsonText.string a.kind.label),
      ("generator_id", toString a.kind.generatorId),
      ("signature_id", toString a.kind.signatureId),
      ("message", Text.JsonText.string a.kind.message)] ++
    a.detail.toList.map fun d => ("detail", Text.JsonText.string d)

def logLine (a : Anomaly) : String := "[PAF-ANOMALY] " ++ a.toJson

end Anomaly

end StreamFraming
