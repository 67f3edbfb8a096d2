/-
  Feeds over the body of a response.

  * `Http.Request` is a request and `Request.line` its first line;
  * `Http.Response` is an answer: a status and a body, which may have been cut off;
  * `Http.openFeed` is the feed over the body of a successful answer.  Any other answer is a
    `Http.StatusFailure`, which has the body as text.
-/
import ObjectFeed.PollFeed
import ObjectFeed.Script
import ObjectFeed.Url

namespace ObjectFeed.Http

/-- A request without its headers. -/
structure Request where
  method : String := "GET"
  url : Url
  deriving DecidableEq, Repr

/-- The first line of a request. -/
def Request.line (r : Request) : String :=
  r.method ++ " " ++ r.url.path.toText ++ Url.marked "?" r.url.query ++ " HTTP/1.1"

/-- An answer. -/
structure Response where
  status : Nat
  body : Octets
  /-- The connection was closed before the end of the body. -/
  isCut : Bool := false
  deriving DecidableEq, Repr

/-- A status that is no success, and the body that came with it. -/
structure StatusFailure where
  status : Nat
  body : String
  deriving DecidableEq, Repr

/-- The standard reasons of the statuses. -/
def reasons : List (Nat × String) :=
  [(100, "Continue"), (101, "Switching Protocols"), (102, "Processing"), (200, "OK"),
   (201, "Created"), (202, "Accepted"), (203, "Non Authoritative Information"),
   (204, "No Content"), (205, "Reset Content"), (206, "Partial Content"), (207, "Multi-Status"),
   (208, "Already Reported"), (226, "IM Used"), (300, "Multiple Choices"),
   (301, "Moved Permanently"), (302, "Found"), (303, "See Other"), (304, "Not Modified"),
   (305, "Use Proxy"), (307, "Temporary Redirect"), (308, "Permanent Redirect"),
   (400, "Bad Request"), (401, "Unauthorized"), (402, "Payment Required"), (403, "Forbidden"),
   (404, "Not Found"), (405, "Method Not Allowed"), (406, "Not Acceptable"),
   (407, "Proxy Authentication Required"), (408, "Request Timeout"), (409, "Conflict"),
   (410, "Gone"), (411, "Length Required"), (412, "Precondition Failed"),
   (413, "Payload Too Large"), (414, "URI Too Long"), (415, "Unsupported Media Type"),
   (416, "Range Not Satisfiable"), (417, "Expectation Failed"), (418, "I'm a teapot"),
   (421, "Misdirected Request"), (422, "Unprocessable Entity"), (423, "Locked"),
   (424, "Failed Dependency"), (426, "Upgrade Required"), (428, "Precondition Required"),
   (429, "Too Many Requests"), (431, "Request Header Fields Too Large"),
   (451, "Unavailable For Legal Reasons"), (500, "Internal Server Error"),
   (501, "Not Implemented"), (502, "Bad Gateway"), (503, "Service Unavailable"),
   (504, "Gateway Timeout"), (505, "HTTP Version Not Supported"),
   (506, "Variant Also Negotiates"), (507, "Insufficient Storage"), (508, "Loop Detected"),
   (510, "Not Extended"), (511, "Network Authentication Required")]

/-- The wording of a failure. -/
def StatusFailure.message (f : StatusFailure) : String :=
  "Unexpected HTTP status " ++ toString f.status ++ " " ++
    (reasons.lookup f.status).getD "<unknown status code>" ++ ": " ++ f.body

/-- Whether a status is a success. -/
def isSuccess (status : Nat) : Bool := 200 ≤ status && status < 300

/-- Whether answers to a method with a status have a body. -/
def hasBody (method : String) (status : Nat) : Bool :=
  method ≠ "HEAD" && status ≠ 204 && status ≠ 304

/-- Text out of octets, with a replacement character for each ill-formed sequence. -/
def lossyText (text : String) (held : Octets) : Octets → String
  | [] => if held.isEmpty then text else text.push '\ufffd'
  | b :: rest =>
    match Utf8.Reading.of (held ++ [b]) with
    | .whole c => lossyText (text.push c) [] rest
    | .begun => lossyText text (held ++ [b]) rest
    | .broken =>
      if held.isEmpty then lossyText (text.push '\ufffd') [] rest
      else
        let text := text.push '\ufffd'
        match Utf8.Reading.of [b] with
        | .whole c => lossyText (text.push c) [] rest
        | .begun => lossyText text [b] rest
        | .broken => lossyText (text.push '\ufffd') [] rest

/-- The body of an answer as text, without a byte order mark; a body that was cut off has none. -/
def Response.text (r : Response) : String :=
  if r.isCut then ""
  else
    let body := match r.body with
      | 0xEF :: 0xBB :: 0xBF :: rest => rest
      | body => body
    lossyText "" [] body

/-- What the transport of a body does. -/
def Response.script (r : Response) : Script :=
  { events := .chunk r.body ::
      (if r.isCut then [.fault (.reported .other "error reading a body from connection")] else []) }

/-- The feed over the body of an answer to a request. -/
def openFeed {α : Type} (request : Request) (response : Response) (interpret : Interpretation α)
    (settings : Settings := {}) : Except StatusFailure (PollFeed Script α) :=
  let response :=
    if hasBody request.method response.status then response
    else { response with body := [], isCut := false }
  if isSuccess response.status then .ok (.new response.script interpret settings)
  else .error { status := response.status, body := response.text }

end ObjectFeed.Http
