import SessionAffinity.LoadBalancer

/-!
# The request log

The lines that `logger.cpp` appends to the request log. A line is kept as data: the session
key it is about, and an event, which is one constructor for each call of `logRequest` in the
source. `text` is the line as it is written, with the time stamp in front.

Nothing in a line is escaped. A line can be told apart from what follows it as long as its key
has no closing bracket and its details have no line feed (`Clean`), and then the file says which
lines were written (`lines_of_requestFile`).
-/

namespace SessionAffinity

open ByteString (decimal signedDecimal isDigit)

/-! ### Lines -/

/-- What a line reports. -/
inductive LogAction
  | lbCheck
  | securityCheck
  | security
  | rateLimit
  | route
  | failover
  | newSession
  | process
  | complete
  deriving DecidableEq

/-- The name of an action in the log. -/
def LogAction.name : LogAction → ByteString
  | lbCheck => bytes "LB_CHECK"
  | securityCheck => bytes "SECURITY_CHECK"
  | security => bytes "SECURITY"
  | rateLimit => bytes "RATE_LIMIT"
  | route => bytes "ROUTE"
  | failover => bytes "FAILOVER"
  | newSession => bytes "NEW_SESSION"
  | process => bytes "PROCESS"
  | complete => bytes "COMPLETE"

/-- The events that are logged, with what is said of them. -/
inductive LogEvent
  | lbPassive (role : LBRole)
  | securityCheck (errorMessage : ByteString)
  | security (errorMessage : ByteString)
  | rateLimited (reason : ByteString)
  | routeBlocked
  | sticky (backend : ℤ)
  | noFailover
  | failover (oldBackend newBackend : ℤ)
  | noBackend
  | newSession (backend : ℤ)
  | invalidBackend (backend : ℤ)
  | processed (backend : ℤ) (requestCount : ℕ)
  | complete (status : RequestStatus) (backend : ℤ) (role : LBRole)
  deriving DecidableEq

namespace LogEvent

/-- The action of an event. -/
def action : LogEvent → LogAction
  | lbPassive _ => .lbCheck
  | securityCheck _ => .securityCheck
  | security _ => .security
  | rateLimited _ => .rateLimit
  | routeBlocked | sticky _ | noFailover | noBackend | invalidBackend _ => .route
  | failover _ _ => .failover
  | newSession _ => .newSession
  | processed _ _ => .process
  | complete _ _ _ => .complete

/-- The status of an event. -/
def status : LogEvent → ByteString
  | lbPassive _ | securityCheck _ | security _ | rateLimited _ => bytes "REJECTED"
  | routeBlocked => bytes "BLOCKED"
  | sticky _ | newSession _ | processed _ _ => bytes "SUCCESS"
  | noFailover | noBackend => bytes "FAILED"
  | failover _ _ => bytes "REASSIGNED"
  | invalidBackend _ => bytes "ERROR"
  | complete status _ _ => status.statusToString

/-- The details of an event. -/
def details : LogEvent → ByteString
  | lbPassive role => role.name ++ bytes " LB is currently PASSIVE (not routing)"
  | securityCheck errorMessage => errorMessage
  | security errorMessage => errorMessage
  | rateLimited reason => reason
  | routeBlocked => bytes "Session is blocked by admin policy"
  | sticky backend => bytes "Sticky session -> backend " ++ signedDecimal backend
  | noFailover => bytes "No backends available for failover"
  | failover oldBackend newBackend =>
    bytes "Backend " ++ signedDecimal oldBackend ++ bytes " -> " ++ signedDecimal newBackend
  | noBackend => bytes "No backends available for new session"
  | newSession backend => bytes "Assigned to backend " ++ signedDecimal backend
  | invalidBackend backend => bytes "Invalid backend ID: " ++ signedDecimal backend
  | processed backend requestCount =>
    bytes "Backend " ++ signedDecimal backend ++ bytes " | request #" ++ decimal requestCount ++
      bytes " for this tuple"
  | complete _ backend role =>
    bytes "Routed to backend " ++ signedDecimal backend ++ bytes " via " ++ role.name ++ bytes " LB"

end LogEvent

/-- A line of the request log. -/
structure RequestLine where
  tupleKey : ByteString
  event : LogEvent
  deriving DecidableEq

namespace RequestLine

/-- The byte `]`, which ends a field of a line. -/
abbrev bracket : UInt8 := 93

/-- The byte that ends a line. -/
abbrev lineFeed : UInt8 := 10

/-- A line as it is written. -/
def text (wall : WallTime) (line : RequestLine) : ByteString :=
  bytes "[" ++ wall.currentTimestamp ++ bytes "] [" ++ line.tupleKey ++ bytes "] [" ++
    line.event.action.name ++ bytes "] [" ++ line.event.status ++ bytes "] " ++
      line.event.details ++ bytes "\n"

/-- Nothing in the line ends a field, or the line itself, too early. -/
def Clean (line : RequestLine) : Prop :=
  bracket ∉ line.tupleKey ∧ lineFeed ∉ line.event.details

/-- The line is that of a backend that has processed a request. -/
def isProcessed (line : RequestLine) : Bool :=
  match line.event with
  | .processed _ _ => true
  | _ => false

/-- It is that of the backend `s` about the client `key`. -/
def isProcessedBy (s : ℤ) (key : ByteString) (line : RequestLine) : Bool :=
  match line.event with
  | .processed backend _ => decide (backend = s ∧ line.tupleKey = key)
  | _ => false

end RequestLine

/-- The logger, as far as the request log goes: whether it is enabled, and the file. -/
structure Logger where
  enabled : Bool
  requestFile : ByteString

namespace Logger

/-- `logRequest`. -/
def logRequest (logger : Logger) (wall : WallTime) (line : RequestLine) : Logger :=
  if !logger.enabled then logger
  else { logger with requestFile := logger.requestFile ++ line.text wall }

/-- The calls of `logRequest`, one after another. -/
def logRequests (logger : Logger) (written : List (WallTime × RequestLine)) : Logger :=
  written.foldl (fun logger w => logger.logRequest w.1 w.2) logger

/-- A logger that is enabled appends the lines to the file. -/
theorem requestFile_logRequests {logger : Logger} (h : logger.enabled = true)
    (written : List (WallTime × RequestLine)) : (logger.logRequests written).requestFile =
      logger.requestFile ++ written.flatMap fun w => w.2.text w.1 := by
  induction written generalizing logger with
  | nil => rw [List.flatMap_nil, List.append_nil]; rfl
  | cons w written ih =>
    have hw : logger.logRequest w.1 w.2 =
        { logger with requestFile := logger.requestFile ++ w.2.text w.1 } := by
      rw [logRequest, if_neg (by simp [h])]
    have henabled : (logger.logRequest w.1 w.2).enabled = true := by rw [hw]; exact h
    show ((logger.logRequest w.1 w.2).logRequests written).requestFile = _
    rw [ih henabled, hw, List.flatMap_cons, List.append_assoc]

end Logger

/-! ### Reading lines back -/

section Unambiguous

open RequestLine (bracket lineFeed)

theorem LogAction.name_injective : Function.Injective LogAction.name := by
  intro a b h
  cases a <;> cases b <;> first | rfl | exact absurd h (by decide)

private theorem bracket_not_mem_name (action : LogAction) : bracket ∉ action.name := by
  cases action <;> decide

private theorem statusToString_injective : Function.Injective RequestStatus.statusToString := by
  intro a b h
  cases a <;> cases b <;> first | rfl | exact absurd h (by decide)

private theorem roleName_injective : Function.Injective LBRole.name := by
  intro a b h
  cases a <;> cases b <;> first | rfl | exact absurd h (by decide)

private theorem bracket_not_mem_statusToString (status : RequestStatus) :
    bracket ∉ status.statusToString := by
  cases status <;> decide

private theorem bracket_not_mem_status (event : LogEvent) : bracket ∉ event.status := by
  cases event with
  | complete status => exact bracket_not_mem_statusToString status
  | _ => rw [LogEvent.status]; decide

private theorem not_mem_twoDigits {b : UInt8} (hb : isDigit b = false) (n : ℕ) :
    b ∉ twoDigits n := by
  have hn := ByteString.not_mem_decimal hb n
  rw [twoDigits]
  split_ifs
  · have hzero : b ∉ bytes "0" := by
      have h : bytes "0" = [48] := by decide
      rw [h, List.mem_singleton]
      rintro rfl
      exact Bool.noConfusion hb
    rw [List.mem_append, not_or]
    exact ⟨hzero, hn⟩
  · exact hn

/-- A time stamp has no brackets. -/
private theorem bracket_not_mem_currentTimestamp (wall : WallTime) :
    bracket ∉ wall.currentTimestamp := by
  have htwo (n : ℕ) : bracket ∉ twoDigits n := not_mem_twoDigits (by decide) n
  have hyear : bracket ∉ decimal wall.year := ByteString.not_mem_decimal (by decide) _
  have hmillis : bracket ∉ signedDecimal wall.millis :=
    ByteString.not_mem_signedDecimal (by decide) (by decide) _
  have hdash : bracket ∉ bytes "-" := by decide
  have hblank : bracket ∉ bytes " " := by decide
  have hcolon : bracket ∉ bytes ":" := by decide
  have hdot : bracket ∉ bytes "." := by decide
  simp only [WallTime.currentTimestamp, List.mem_append, not_or]
  exact ⟨⟨⟨⟨⟨⟨⟨⟨⟨⟨⟨⟨hyear, hdash⟩, htwo _⟩, hdash⟩, htwo _⟩, hblank⟩, htwo _⟩, hcolon⟩, htwo _⟩,
    hcolon⟩, htwo _⟩, hdot⟩, hmillis⟩

/-- A number ends where a blank follows it. -/
private theorem number_blank_inj {x y : ℤ} {r r' : ByteString}
    (h : signedDecimal x ++ 32 :: r = signedDecimal y ++ 32 :: r') : x = y ∧ r = r' := by
  have hblank (z : ℤ) : 32 ∉ signedDecimal z :=
    ByteString.not_mem_signedDecimal (by decide) (by decide) z
  obtain ⟨hnumber, hrest⟩ := ByteString.append_cons_inj (hblank x) (hblank y) h
  exact ⟨ByteString.signedDecimal_injective hnumber, hrest⟩

/-- Action, status and details say which event it is. -/
theorem LogEvent.eq_of_fields {e e' : LogEvent} (haction : e.action.name = e'.action.name)
    (hstatus : e.status = e'.status) (hdetails : e.details = e'.details) : e = e' := by
  have haction := LogAction.name_injective haction
  cases e with
  | lbPassive role =>
    cases e' with
    | lbPassive role' => rw [roleName_injective (List.append_cancel_right hdetails)]
    | _ => exact LogAction.noConfusion haction
  | securityCheck errorMessage =>
    cases e' with
    | securityCheck errorMessage' => exact congrArg securityCheck hdetails
    | _ => exact LogAction.noConfusion haction
  | security errorMessage =>
    cases e' with
    | security errorMessage' => exact congrArg security hdetails
    | _ => exact LogAction.noConfusion haction
  | rateLimited reason =>
    cases e' with
    | rateLimited reason' => exact congrArg rateLimited hdetails
    | _ => exact LogAction.noConfusion haction
  | failover oldBackend newBackend =>
    cases e' with
    | failover oldBackend' newBackend' =>
      have harrow : bytes " -> " = 32 :: bytes "-> " := by decide
      simp only [details, List.append_assoc, harrow, List.cons_append] at hdetails
      obtain ⟨hold, hnew⟩ := number_blank_inj (List.append_cancel_left hdetails)
      rw [hold, ByteString.signedDecimal_injective (List.append_cancel_left hnew)]
    | _ => exact LogAction.noConfusion haction
  | newSession backend =>
    cases e' with
    | newSession backend' =>
      rw [ByteString.signedDecimal_injective (List.append_cancel_left hdetails)]
    | _ => exact LogAction.noConfusion haction
  | processed backend requestCount =>
    cases e' with
    | processed backend' requestCount' =>
      have hbar : bytes " | request #" = 32 :: bytes "| request #" := by decide
      have hcut := List.append_cancel_right hdetails
      simp only [List.append_assoc, hbar, List.cons_append] at hcut
      obtain ⟨hbackend, hcount⟩ := number_blank_inj (List.append_cancel_left hcut)
      rw [hbackend, ByteString.decimal_injective (List.append_cancel_left hcount)]
    | _ => exact LogAction.noConfusion haction
  | complete status backend role =>
    cases e' with
    | complete status' backend' role' =>
      have hvia : bytes " via " = 32 :: bytes "via " := by decide
      have hcut := List.append_cancel_right hdetails
      simp only [List.append_assoc, hvia, List.cons_append] at hcut
      obtain ⟨hbackend, hrole⟩ := number_blank_inj (List.append_cancel_left hcut)
      rw [statusToString_injective hstatus, hbackend,
        roleName_injective (List.append_cancel_left hrole)]
    | _ => exact LogAction.noConfusion haction
  | routeBlocked =>
    cases e' with
    | routeBlocked => rfl
    | sticky | noFailover | noBackend | invalidBackend =>
      exact absurd hstatus (by rw [status, status]; decide)
    | _ => exact LogAction.noConfusion haction
  | sticky backend =>
    cases e' with
    | sticky backend' =>
      rw [ByteString.signedDecimal_injective (List.append_cancel_left hdetails)]
    | routeBlocked | noFailover | noBackend | invalidBackend =>
      exact absurd hstatus (by rw [status, status]; decide)
    | _ => exact LogAction.noConfusion haction
  | noFailover =>
    cases e' with
    | noFailover => rfl
    | noBackend => exact absurd hdetails (by rw [details, details]; decide)
    | routeBlocked | sticky | invalidBackend =>
      exact absurd hstatus (by rw [status, status]; decide)
    | _ => exact LogAction.noConfusion haction
  | noBackend =>
    cases e' with
    | noBackend => rfl
    | noFailover => exact absurd hdetails (by rw [details, details]; decide)
    | routeBlocked | sticky | invalidBackend =>
      exact absurd hstatus (by rw [status, status]; decide)
    | _ => exact LogAction.noConfusion haction
  | invalidBackend backend =>
    cases e' with
    | invalidBackend backend' =>
      rw [ByteString.signedDecimal_injective (List.append_cancel_left hdetails)]
    | routeBlocked | sticky | noFailover | noBackend =>
      exact absurd hstatus (by rw [status, status]; decide)
    | _ => exact LogAction.noConfusion haction

/-- A line with its brackets and its line feed standing out. -/
private theorem text_append (wall : WallTime) (line : RequestLine) (rest : ByteString) :
    line.text wall ++ rest = 91 :: (wall.currentTimestamp ++ bracket :: 32 :: 91 ::
      (line.tupleKey ++ bracket :: 32 :: 91 :: (line.event.action.name ++ bracket :: 32 :: 91 ::
        (line.event.status ++ bracket :: 32 :: (line.event.details ++ lineFeed :: rest))))) := by
  have h₁ : bytes "[" = [91] := by decide
  have h₂ : bytes "] [" = [bracket, 32, 91] := by decide
  have h₃ : bytes "] " = [bracket, 32] := by decide
  have h₄ : bytes "\n" = [lineFeed] := by decide
  simp [RequestLine.text, h₁, h₂, h₃, h₄]

/-- A field of a line ends at its bracket. -/
private theorem field_inj {a a' rest rest' : ByteString} (ha : bracket ∉ a) (ha' : bracket ∉ a')
    (h : a ++ bracket :: 32 :: 91 :: rest = a' ++ bracket :: 32 :: 91 :: rest') :
    a = a' ∧ rest = rest' := by
  obtain ⟨hfield, h⟩ := ByteString.append_cons_inj ha ha' h
  exact ⟨hfield, (List.cons.inj (List.cons.inj h).2).2⟩

/-- **A clean line can be told apart from what follows it.** -/
theorem RequestLine.text_append_inj {wall wall' : WallTime} {line line' : RequestLine}
    {rest rest' : ByteString} (hline : line.Clean) (hline' : line'.Clean)
    (h : line.text wall ++ rest = line'.text wall' ++ rest') : line = line' ∧ rest = rest' := by
  rw [text_append, text_append] at h
  obtain ⟨-, h⟩ := field_inj (bracket_not_mem_currentTimestamp wall)
    (bracket_not_mem_currentTimestamp wall') (List.cons.inj h).2
  obtain ⟨hkey, h⟩ := field_inj hline.1 hline'.1 h
  obtain ⟨haction, h⟩ := field_inj (bracket_not_mem_name _) (bracket_not_mem_name _) h
  -- the status is the last field, with a blank alone behind it
  obtain ⟨hstatus, h⟩ := ByteString.append_cons_inj (bracket_not_mem_status _)
    (bracket_not_mem_status _) h
  obtain ⟨hdetails, hrest⟩ := ByteString.append_cons_inj hline.2 hline'.2 (List.cons.inj h).2
  have hevent := LogEvent.eq_of_fields haction hstatus hdetails
  cases line
  cases line'
  exact ⟨congrArg₂ RequestLine.mk hkey hevent, hrest⟩

/-- **The file says which lines were written.** Two loggers that append clean lines to the same
file have written the same ones if the files still agree, at whatever times they did so. -/
theorem lines_of_requestFile {logger logger' : Logger} (hon : logger.enabled = true)
    (hon' : logger'.enabled = true) (hfile : logger.requestFile = logger'.requestFile)
    {written written' : List (WallTime × RequestLine)} (hclean : ∀ w ∈ written, w.2.Clean)
    (hclean' : ∀ w ∈ written', w.2.Clean)
    (h : (logger.logRequests written).requestFile = (logger'.logRequests written').requestFile) :
    written.map Prod.snd = written'.map Prod.snd := by
  rw [Logger.requestFile_logRequests hon, Logger.requestFile_logRequests hon', hfile] at h
  refine ByteString.map_eq_of_flatMap_eq (fun w => ?_) (fun w w' rest rest' hw hw' htext => ?_)
    hclean hclean' (List.append_cancel_left h)
  · rw [← List.append_nil (w.2.text w.1), text_append]
    exact List.cons_ne_nil _ _
  · exact RequestLine.text_append_inj hw hw' htext

end Unambiguous

end SessionAffinity
