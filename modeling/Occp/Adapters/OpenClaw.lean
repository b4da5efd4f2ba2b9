import Occp.Lib.Runs
import Occp.Value

/-!
# The OpenClaw connection (`adapters/openclaw_executor.py`)

Calls of `send_chat` side by side, and the receive loop that their messages come in by. A step
takes the loop over one message, or one call to its next await. The id of a request is the place
of its call, since no two are the same.
-/

namespace Occp.OpenClaw

open Lib (run)

/-- Where a call of `send_chat` stands. -/
inductive Stage where
  | sending
  | acking
  | completing (runId : String)
  | returned (payload : Dict Value)
  | raised (error : String)

structure Call where
  stage : Stage := .sending
  /-- The future that `_pending` has for the request. -/
  ack : Option (Except String (Dict Value)) := none
  /-- The future that `_chat_completions` has for the run. -/
  completion : Option (Dict Value) := none
  /-- The timer of the `wait_for` that the call is in has fired. -/
  expired : Bool := false

structure OpenClawConnection where
  connected : Bool := true
  calls : List Call := []
  pending : List Nat := []
  chatCompletions : Dict Nat := []
  chatTextBuffer : Dict (List String) := []

inductive Message where
  /-- The error of a failed request is the text that it is raised with. -/
  | res (id : Nat) (reply : Except String (Dict Value))
  | agent (runId text : String)
  | chatFinal (payload : Dict Value)
  | other

/-- `payload.get("runId", "")`. -/
def runId (payload : Dict Value) : String :=
  match payload.get? "runId" with
  | some (.str id) => id
  | _ => ""

namespace OpenClawConnection

variable (s : OpenClawConnection)

def setCall (k : Nat) (c : Call) : OpenClawConnection := { s with calls := s.calls.set k c }

/-! ## The receive loop -/

/-- `set_result` or `set_exception`, unless the future is done; the timer cancels it. -/
def resolveAck (reply : Except String (Dict Value)) (k : Nat) (calls : List Call) : List Call :=
  match calls[k]? with
  | some c => if c.ack.isSome || c.expired then calls else calls.set k { c with ack := some reply }
  | none => calls

def receiveRes (k : Nat) (reply : Except String (Dict Value)) : OpenClawConnection :=
  if k ∈ s.pending then { s with pending := s.pending.erase k, calls := resolveAck reply k s.calls } else s

def receiveAgent (run text : String) : OpenClawConnection :=
  if run = "" ∨ text = "" then s
  else
    let chunks := (s.chatTextBuffer.get? run).getD []
    { s with chatTextBuffer := s.chatTextBuffer.set run (chunks ++ [text]) }

/-- The payload of a `chat.final`, with the text that was streamed for its run. -/
def assembled (payload : Dict Value) : Dict Value :=
  match ((s.chatTextBuffer.get? (runId payload)).getD []).getLast? with
  | some fullText => payload.set "message" (.dict [("text", .str fullText)])
  | none => payload

def receiveFinal (payload : Dict Value) : OpenClawConnection :=
  let run := runId payload
  if run = "" then s
  else
    match s.chatCompletions.get? run with
    | none => s
    | some k =>
      let popped := { s with chatCompletions := s.chatCompletions.pop run }
      match s.calls[k]? with
      | some c =>
        if c.completion.isSome || c.expired then popped
        else
          { popped with
            chatTextBuffer := s.chatTextBuffer.pop run
            calls := s.calls.set k { c with completion := some (s.assembled payload) } }
      | none => popped

def receive : Message → OpenClawConnection
  | .res k reply => s.receiveRes k reply
  | .agent run text => s.receiveAgent run text
  | .chatFinal payload => s.receiveFinal payload
  | .other => s

/-- The `finally` of the loop. -/
def connectionLost : OpenClawConnection :=
  { s with
    connected := false
    calls := s.pending.foldl (fun calls k => resolveAck (.error "Connection lost") k calls) s.calls
    pending := [] }

/-! ## The calls -/

/-- `send_chat` and `send_request`, up to `_ws.send`. -/
def sendChat : OpenClawConnection :=
  if s.connected then { s with calls := s.calls ++ [{}], pending := s.pending ++ [s.calls.length] }
  else { s with calls := s.calls ++ [{ stage := .raised "Not connected to OpenClaw Gateway" }] }

/-- What follows the wait for the acknowledgement. -/
def afterAck (k : Nat) (c : Call) : Except String (Dict Value) → OpenClawConnection
  | .error error => { s with pending := s.pending.erase k }.setCall k { c with stage := .raised error }
  | .ok ack =>
    let run := runId ack
    if run = "" then s.setCall k { c with stage := .returned ack }
    else { s with chatCompletions := s.chatCompletions.set run k }.setCall k { c with stage := .completing run }

/-- The call goes on from its await, if it can; `sent` says whether `_ws.send` went well. -/
def resume (k : Nat) (sent : Bool) : OpenClawConnection :=
  match s.calls[k]? with
  | none => s
  | some c =>
    match c.stage with
    | .sending =>
      if sent then
        match c.ack with
        | some reply => s.afterAck k c reply
        | none => s.setCall k { c with stage := .acking }
      else { s with pending := s.pending.erase k }.setCall k { c with stage := .raised "ConnectionClosed" }
    | .acking =>
      if c.expired then
        { s with pending := s.pending.erase k }.setCall k
          { c with stage := .raised "Request timeout after 30.0s (method=chat.send)" }
      else
        match c.ack with
        | some reply => s.afterAck k c reply
        | none => s
    | .completing run =>
      if c.expired then
        { s with chatCompletions := s.chatCompletions.pop run }.setCall k
          { c with stage := .raised "Chat completion timeout" }
      else
        match c.completion with
        | some payload => s.setCall k { c with stage := .returned payload }
        | none => s
    | .returned _ | .raised _ => s

def timer (k : Nat) : OpenClawConnection :=
  match s.calls[k]? with
  | none => s
  | some c =>
    match c.stage with
    | .acking | .completing _ => s.setCall k { c with expired := true }
    | .sending | .returned _ | .raised _ => s

end OpenClawConnection

inductive Event where
  | sendChat
  | resume (k : Nat) (sent : Bool)
  | timer (k : Nat)
  | receive (m : Message)
  | connectionLost
  | reconnected

def step (s : OpenClawConnection) : Event → OpenClawConnection
  | .sendChat => s.sendChat
  | .resume k sent => s.resume k sent
  | .timer k => s.timer k
  -- the loop runs on a live connection only
  | .receive m => if s.connected then s.receive m else s
  | .connectionLost => s.connectionLost
  | .reconnected => { s with connected := true }

def history (events : List Event) : OpenClawConnection := run step {} events

end Occp.OpenClaw
