/-
This file answers the requests of those who collect the published values. There is one path to ask
for, and it can only be read.
-/

import NodeTelemetry.Http.Request
import NodeTelemetry.Http.Response
import NodeTelemetry.Registry.Exposition

namespace NodeTelemetry.Endpoint

open Http

def metricsPath : String :=
  "/metrics"

/-- The content type of the published text. -/
def contentType : String :=
  "text/plain; version=0.0.4"

/-- The response to a line that is no request. -/
def badRequest : Response :=
  { status := 400
    contentType := none
    body := "" }

/-- The response to a request for anything else. The method `HEAD` asks for no body. -/
def notFound (method : String) : Response :=
  { status := 404
    contentType := none
    body := if method = "HEAD" then "" else "not found" }

/-- The response to a request. -/
def respond (registry : Registry) (line : RequestLine) : Response :=
  if !line.isWellFormed then badRequest
  else if line.method = "GET" && pathOf line.target = metricsPath then
    { status := 200
      contentType := some contentType
      body := registry.expose }
  else notFound line.method

/-- The response to the first line of what came over a connection. -/
def respondTo (registry : Registry) (text : String) : Response :=
  match RequestLine.ofText? text with
  | none => badRequest
  | some line => respond registry line

end NodeTelemetry.Endpoint
