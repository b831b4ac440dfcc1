import Atlas.Lib.Dialogues
import Atlas.RateLimit
import Atlas.Values

/-!
# The middleware before the routes

A request passes through layers on its way to the routes.  The outermost one adds security
headers to the response; then the size of the request body is limited; then the rate limiter
may turn the request away.  Each layer is a program around a program: it hands on what is
received, and what is sent comes back through it.

Of the routes nothing is assumed.  They may catch the exception that the size limit raises
while they read the body, send in any order, or not end at all.
-/

namespace Atlas

open Dialogue

abbrev Bytes := List UInt8

def utf8 (s : String) : Bytes := s.toUTF8.toList

/-- The messages of `receive`; an `http.request` without a body has an empty one. -/
inductive AsgiReceived where
  | httpRequest (body : Bytes) (moreBody : Bool)
  | other (type : String)
deriving DecidableEq, Repr

/-- The messages of `send`; a start without headers has none. -/
inductive AsgiSent where
  | responseStart (status : Nat) (headers : List (String × String))
  | responseBody (body : Bytes) (moreBody : Bool)
  | other (type : String)
deriving DecidableEq, Repr

/-- `_RequestBodyTooLarge`, and every other exception. -/
inductive AsgiError where
  | requestBodyTooLarge
  | other (name : String)
deriving DecidableEq, Repr

/-- An ASGI application that was called. -/
abbrev AsgiApp := Program AsgiReceived AsgiSent AsgiError

abbrev AsgiEvents := List (Event AsgiReceived AsgiSent AsgiError)

/-- What the middleware reads of an ASGI scope.  Header texts are decoded as Latin-1. -/
structure AsgiScope extends HttpScope where
  scheme : String
  headers : List (String × String)

def AsgiSent.isStart : AsgiSent → Bool
  | .responseStart _ _ => true
  | _ => false

/-- `orjson.dumps` of an error envelope whose texts need no escapes. -/
def ErrorBody.dumps (e : ErrorBody) : Bytes :=
  utf8 ("\x7b\"error\":\x7b\"code\":\"" ++ e.code ++ "\",\"message\":\"" ++ e.message ++
    "\",\"details\":\x7b\x7d\x7d\x7d")

/-- `{key.lower(): value}`: of two headers with one name the later one counts. -/
def headerValue (name : String) (headers : List (String × String)) : Option String :=
  (headers.reverse.find? fun h => decide (h.1.toLower = name)).map Prod.snd

/-- The names of headers, in lower case. -/
def headerNames (headers : List (String × String)) : List String :=
  headers.map fun h => h.1.toLower

/-- The bytes that a received message adds to the body. -/
def requestBytes : Except AsgiError AsgiReceived → Nat
  | .ok (.httpRequest body _) => body.length
  | _ => 0

def isRequest : Except AsgiError AsgiReceived → Bool
  | .ok (.httpRequest _ _) => true
  | _ => false

/-- The bytes of request body that a dialogue received. -/
def bytesOf (es : AsgiEvents) : Nat := ((inbound es).map requestBytes).sum

@[simp] theorem bytesOf_received (m : Except AsgiError AsgiReceived) (es : AsgiEvents) :
    bytesOf (.received m :: es) = requestBytes m + bytesOf es := rfl

@[simp] theorem bytesOf_sent (o : AsgiSent) (es : AsgiEvents) :
    bytesOf (.sent o :: es) = bytesOf es := rfl

/-! ## The size of the body -/

namespace BodyLimit

/-- `_send_json` with the error of a body that is too large. -/
def tooLargeReply (maxBytes : Int) : List AsgiSent :=
  let body := ErrorBody.dumps
    ⟨"REQUEST_BODY_TOO_LARGE", "Request body exceeds " ++ toString maxBytes ++ " bytes"⟩
  [.responseStart 413
      [("content-type", "application/json"), ("content-length", toString body.length)],
    .responseBody body false]

/-- The characters that `int` passes over at both ends of an ASCII text. -/
def isAsciiBlank (c : Char) : Bool := c == ' ' || ('\t' ≤ c && c ≤ '\r')

/-- `int(raw.decode("ascii"))`; `none` is the `ValueError`. -/
def asciiInt [PyText] (raw : String) : Option Int :=
  if raw.toList.all fun c => c.toNat < 128 then
    pyInt ((raw.toList.dropWhile isAsciiBlank).reverse.dropWhile isAsciiBlank).reverse
  else none

/-- The `Content-Length` says too much, or is not a number. -/
def lengthRefused [PyText] (maxBytes : Int) (scope : AsgiScope) : Bool :=
  match headerValue "content-length" scope.headers with
  | none => false
  | some raw => decide (maxBytes < (asciiInt raw).getD (maxBytes + 1))

/-- `bytes_seen` and `response_started`. -/
structure Memory where
  bytesSeen : Nat
  responseStarted : Bool

/-- `limited_receive` and `tracking_send`, and the `except` around the application. -/
def adapter (maxBytes : Int) : Adapter AsgiReceived AsgiSent AsgiError where
  Memory := Memory
  start := ⟨0, false⟩
  received
    | m, .ok (.httpRequest body moreBody) =>
        let m := { m with bytesSeen := m.bytesSeen + body.length }
        if maxBytes < m.bytesSeen then (m, .error .requestBodyTooLarge)
        else (m, .ok (.httpRequest body moreBody))
    | m, x => (m, x)
  sent m o := ({ m with responseStarted := m.responseStarted || o.isStart }, o)
  finished
    | m, .error .requestBodyTooLarge =>
        if m.responseStarted then ([], .ok ()) else (tooLargeReply maxBytes, .ok ())
    | _, r => ([], r)

/-- `RequestBodySizeLimitMiddleware.__call__`. -/
def call [PyText] (maxBytes : Int) (scope : AsgiScope) (app : AsgiApp) : AsgiApp :=
  if scope.type ≠ "http" ∨ maxBytes ≤ 0 then app
  else if lengthRefused maxBytes scope then Program.reply (tooLargeReply maxBytes) (.ok ())
  else (adapter maxBytes).wrap app

/-! ### What the adapter makes of a dialogue -/

variable {maxBytes : Int} {m : (adapter maxBytes).Memory} {n : Nat} {is os : AsgiEvents}

/-- A request message is counted, and is replaced by the exception over the limit. -/
theorem received_spec (maxBytes : Int) (m : (adapter maxBytes).Memory) (x : Except AsgiError AsgiReceived) :
    ((adapter maxBytes).received m x).1 = ⟨m.bytesSeen + requestBytes x, m.responseStarted⟩ ∧
      ((((adapter maxBytes).received m x).2 = x ∧
          (requestBytes x = 0 ∨ (m.bytesSeen + requestBytes x : Int) ≤ maxBytes)) ∨
        (((adapter maxBytes).received m x).2 = .error .requestBodyTooLarge ∧
          maxBytes < (m.bytesSeen + requestBytes x : Int))) := by
  unfold adapter
  match x with
  | .ok (.httpRequest body moreBody) =>
      dsimp only
      by_cases hover : maxBytes < ((m.bytesSeen + body.length : Nat) : Int)
      · rw [if_pos hover]
        exact ⟨rfl, .inr ⟨rfl, by simpa [requestBytes] using hover⟩⟩
      · rw [if_neg hover]
        exact ⟨rfl, .inl ⟨rfl, .inr (by simpa [requestBytes] using hover)⟩⟩
  | .ok (.other type) => exact ⟨rfl, .inl ⟨rfl, .inl rfl⟩⟩
  | .error e => exact ⟨rfl, .inl ⟨rfl, .inl rfl⟩⟩

theorem bytesSeen_received (maxBytes : Int) (m : (adapter maxBytes).Memory) (x : Except AsgiError AsgiReceived) :
    ((adapter maxBytes).received m x).1.bytesSeen = m.bytesSeen + requestBytes x := by
  rw [(received_spec maxBytes m x).1]

theorem responseStarted_received (maxBytes : Int) (m : (adapter maxBytes).Memory) (x : Except AsgiError AsgiReceived) :
    ((adapter maxBytes).received m x).1.responseStarted = m.responseStarted := by
  rw [(received_spec maxBytes m x).1]

theorem received_eq (maxBytes : Int) (m : (adapter maxBytes).Memory) (x : Except AsgiError AsgiReceived) :
    ((adapter maxBytes).received m x).2 =
      if isRequest x ∧ maxBytes < (m.bytesSeen + requestBytes x : Nat) then
        .error .requestBodyTooLarge
      else x := by
  unfold adapter
  match x with
  | .ok (.httpRequest body moreBody) =>
      simp only [isRequest, requestBytes, true_and]
      split
      · rfl
      · rfl
  | .ok (.other type) => rfl
  | .error e => rfl

/-- The messages that are handed to the application, in the place of those that the client sent:
each is handed on as it is, unless it is a request with which the body, of which so many bytes have
been seen before, is over the limit. -/
def Handed (maxBytes : Int) (bytesSeen : Nat) (handed sent : List (Except AsgiError AsgiReceived)) :
    Prop :=
  handed.length = sent.length ∧ ∀ before x after, sent = before ++ x :: after →
    handed[before.length]? = some (
      if isRequest x ∧ maxBytes < (bytesSeen + ((before ++ [x]).map requestBytes).sum : Nat) then
        .error .requestBodyTooLarge
      else x)

theorem handed_nil : Handed maxBytes n [] [] := by
  refine ⟨rfl, ?_⟩
  intro before x after hsplit
  cases before <;> cases hsplit

/-- The program inside is handed what the client sent, message by message. -/
theorem handed_of_makes (h : (adapter maxBytes).Makes m is os) :
    Handed maxBytes m.bytesSeen (inbound is) (inbound os) := by
  induction h with
  | nil m => exact handed_nil
  | received y rest ih =>
      rename_i m is os
      obtain ⟨hlength, hhanded⟩ := ih
      rw [bytesSeen_received] at hhanded
      refine ⟨congrArg (· + 1) hlength, ?_⟩
      intro before x after hsplit
      cases before with
      | nil =>
          obtain ⟨rfl, -⟩ := List.cons.inj hsplit
          rw [inbound_received, received_eq]
          simp
      | cons z before =>
          obtain ⟨rfl, hrest⟩ := List.cons.inj hsplit
          rw [inbound_received, List.length_cons, List.getElem?_cons_succ, hhanded before x after hrest]
          simp only [List.cons_append, List.map_cons, List.sum_cons, Nat.add_assoc]
  | sent o rest ih => exact ih
  | finished r hne hreply =>
      rw [inbound_of_reply hreply]
      exact handed_nil

/-- Only the exception of the middleware itself is caught. -/
theorem finished_eq (maxBytes : Int) (m : (adapter maxBytes).Memory) {r : Except AsgiError Unit}
    (h : r ≠ .error .requestBodyTooLarge) : (adapter maxBytes).finished m r = ([], r) := by
  unfold adapter
  match r with
  | .ok () => rfl
  | .error (.other name) => rfl
  | .error .requestBodyTooLarge => exact absurd rfl h

/-- What the program inside is handed stays within the limit. -/
theorem bytes_inside (h : (adapter maxBytes).Makes m is os) :
    (m.bytesSeen + bytesOf is : Int) ≤ max maxBytes m.bytesSeen := by
  induction h with
  | nil m => simp [bytesOf]
  | received x rest ih =>
      rename_i m is os
      rw [bytesSeen_received] at ih
      rw [bytesOf_received]
      push_cast at ih ⊢
      rcases (received_spec maxBytes m x).2 with ⟨hsame, hsmall⟩ | ⟨hraised, hover⟩
      · rw [hsame]
        omega
      · rw [hraised]
        simp only [requestBytes]
        omega
  | sent o rest ih => exact ih
  | finished r hne hreply => simp [bytesOf]

/-- The exception reaches the program only when the body is too large. -/
theorem bytes_of_raised (h : (adapter maxBytes).Makes m is os)
    (hinside : .error .requestBodyTooLarge ∈ inbound is)
    (houtside : .error .requestBodyTooLarge ∉ inbound os) :
    maxBytes < (m.bytesSeen + bytesOf os : Int) := by
  induction h with
  | nil m => exact absurd hinside List.not_mem_nil
  | received x rest ih =>
      rename_i m is os
      rw [inbound_received] at hinside houtside
      rw [bytesSeen_received] at ih
      rw [bytesOf_received]
      push_cast at ih ⊢
      rcases (received_spec maxBytes m x).2 with ⟨hsame, -⟩ | ⟨-, hover⟩
      · rw [hsame] at hinside
        rcases List.mem_cons.mp hinside with heq | hrest
        · exact absurd (heq ▸ List.mem_cons_self) houtside
        · have hlater := ih hrest fun hmem => houtside (List.mem_cons_of_mem _ hmem)
          omega
      · omega
  | sent o rest ih => exact ih hinside houtside
  | finished r hne hreply => exact absurd hinside List.not_mem_nil

/-- What is sent is what the program sends.  At most a reply follows, where the program ended
with the exception and had not started a response. -/
theorem outbound_of_makes (h : (adapter maxBytes).Makes m is os) :
    ∃ rs, outbound os = outbound is ++ rs ∧ rs <+: tooLargeReply maxBytes ∧
      (rs ≠ [] → .finished (.error .requestBodyTooLarge) ∈ is ∧ m.responseStarted = false ∧
        ∀ o ∈ outbound is, o.isStart = false) := by
  induction h with
  | nil m => exact ⟨[], rfl, List.nil_prefix, fun hne => absurd rfl hne⟩
  | received x rest ih =>
      obtain ⟨rs, hsent, hprefix, hwhen⟩ := ih
      refine ⟨rs, hsent, hprefix, ?_⟩
      intro hne
      obtain ⟨hended, hstarted, hnone⟩ := hwhen hne
      rw [responseStarted_received] at hstarted
      exact ⟨List.mem_cons_of_mem _ hended, hstarted, hnone⟩
  | sent o rest ih =>
      obtain ⟨rs, hsent, hprefix, hwhen⟩ := ih
      refine ⟨rs, congrArg (o :: ·) hsent, hprefix, ?_⟩
      intro hne
      obtain ⟨hended, hstarted, hnone⟩ := hwhen hne
      obtain ⟨hbefore, hstart⟩ := Bool.or_eq_false_iff.mp hstarted
      refine ⟨List.mem_cons_of_mem _ hended, hbefore, ?_⟩
      intro o' ho'
      rcases List.mem_cons.mp ho' with rfl | hlater
      · exact hstart
      · exact hnone o' hlater
  | finished r hne hreply =>
      rename_i m os
      have hsent := outbound_prefix_of_reply hreply
      by_cases hraised : r = .error .requestBodyTooLarge
      · rw [hraised] at hsent ⊢
        cases hstarted : m.responseStarted with
        | true =>
            have hquiet : (adapter maxBytes).finished m (.error .requestBodyTooLarge) = ([], .ok ()) :=
              if_pos hstarted
            rw [hquiet] at hsent
            exact ⟨[], List.prefix_nil.mp hsent, List.nil_prefix, fun hne => absurd rfl hne⟩
        | false =>
            have hanswer : (adapter maxBytes).finished m (.error .requestBodyTooLarge) =
                (tooLargeReply maxBytes, .ok ()) := if_neg (Bool.eq_false_iff.mp hstarted)
            rw [hanswer] at hsent
            refine ⟨outbound os, rfl, hsent, fun _ => ⟨List.mem_singleton_self _, rfl, ?_⟩⟩
            intro o ho
            exact absurd ho List.not_mem_nil
      · rw [finished_eq maxBytes m hraised] at hsent
        exact ⟨[], List.prefix_nil.mp hsent, List.nil_prefix, fun hne => absurd rfl hne⟩

/-- Within the limit nothing is changed, unless the program raises the exception by itself. -/
theorem eq_of_makes (h : (adapter maxBytes).Makes m is os)
    (hsmall : (m.bytesSeen + bytesOf os : Int) ≤ maxBytes)
    (hended : .finished (.error .requestBodyTooLarge) ∉ is) : is = os := by
  induction h with
  | nil m => rfl
  | received x rest ih =>
      rename_i m is os
      rw [bytesSeen_received] at ih
      rw [bytesOf_received] at hsmall
      push_cast at ih hsmall
      rcases (received_spec maxBytes m x).2 with ⟨hsame, -⟩ | ⟨-, hover⟩
      · rw [hsame, ih (by omega) fun hmem => hended (List.mem_cons_of_mem _ hmem)]
      · omega
  | sent o rest ih =>
      exact congrArg (.sent o :: ·) (ih hsmall fun hmem => hended (List.mem_cons_of_mem _ hmem))
  | finished r hne hreply =>
      have hquiet : r ≠ .error .requestBodyTooLarge := by
        intro hraised
        exact hended (hraised ▸ List.mem_singleton_self _)
      rw [finished_eq maxBytes _ hquiet] at hreply
      rcases List.prefix_cons_iff.mp hreply with rfl | ⟨rest, rfl, hrest⟩
      · exact absurd rfl hne
      · rw [List.prefix_nil.mp hrest]

theorem makes_self {S : Type} {move : S → Move AsgiReceived AsgiSent AsgiError S} {s : S}
    {es : AsgiEvents} (h : From move s es) {m : (adapter maxBytes).Memory}
    (hsmall : (m.bytesSeen + bytesOf es : Int) ≤ maxBytes)
    (hended : .finished (.error .requestBodyTooLarge) ∉ es) : (adapter maxBytes).Makes m es es := by
  induction h generalizing m with
  | nil s => exact .nil m
  | receive hmove x rest ih =>
      rw [bytesOf_received] at hsmall
      push_cast at hsmall
      rcases (received_spec maxBytes m x).2 with ⟨hsame, -⟩ | ⟨-, hover⟩
      · have hrest := ih (m := ((adapter maxBytes).received m x).1)
          (by rw [bytesSeen_received]; push_cast; omega)
          fun hmem => hended (List.mem_cons_of_mem _ hmem)
        have hmakes := Adapter.Makes.received x hrest
        rwa [hsame] at hmakes
      · omega
  | send hmove rest ih =>
      exact .sent _ (ih hsmall fun hmem => hended (List.mem_cons_of_mem _ hmem))
  | finish hmove =>
      rename_i s r
      have hquiet : r ≠ .error .requestBodyTooLarge := by
        intro hraised
        exact hended (hraised ▸ List.mem_singleton_self _)
      refine .finished r (List.cons_ne_nil _ _) ?_
      rw [finished_eq maxBytes m hquiet]
      exact List.prefix_refl _

/-! ### Any application -/

section Calls

variable [PyText] {scope : AsgiScope} {app : AsgiApp}

/-- The application ends with the exception only if it was handed the exception. -/
def Honest (app : AsgiApp) : Prop :=
  ∀ es, app.Has es → .finished (.error .requestBodyTooLarge) ∈ es →
    .error .requestBodyTooLarge ∈ inbound es

/-- **The body limit, whatever the application does.**  What the application is handed is what the
client sent, message by message, but for the exception in place of the requests that are over the
limit; so it stays within the limit, and it gets the exception only when the client sent more.  What
the client is sent is what the application sends, followed at most by the 413: where the length header was
refused, or where the application ended with the exception and no response had been started. -/
theorem body_limit_holds (hhttp : scope.type = "http") (hmax : 0 < maxBytes)
    (houtside : .error .requestBodyTooLarge ∉ inbound os) (h : (call maxBytes scope app).Has os) :
    ∃ is, app.Has is ∧ Handed maxBytes 0 (inbound is) (inbound os) ∧
      (bytesOf is : Int) ≤ maxBytes ∧
      (.error .requestBodyTooLarge ∈ inbound is → maxBytes < (bytesOf os : Int)) ∧
      ∃ rs, outbound os = outbound is ++ rs ∧ rs <+: tooLargeReply maxBytes ∧
        (rs ≠ [] → (lengthRefused maxBytes scope = true ∨
            .finished (.error .requestBodyTooLarge) ∈ is) ∧
          ∀ o ∈ outbound is, o.isStart = false) := by
  have hcall : ¬ (scope.type ≠ "http" ∨ maxBytes ≤ 0) :=
    not_or.mpr ⟨not_not.mpr hhttp, not_le.mpr hmax⟩
  unfold call at h
  rw [if_neg hcall] at h
  by_cases hlength : lengthRefused maxBytes scope = true
  · -- the application is never called
    rw [if_pos hlength, Program.has_reply_iff] at h
    have hsilent : inbound os = [] := inbound_of_reply h
    refine ⟨[], .nil _, hsilent ▸ handed_nil, hmax.le, fun hin => absurd hin List.not_mem_nil, outbound os, rfl,
      outbound_prefix_of_reply h, fun _ => ⟨.inl hlength, ?_⟩⟩
    intro o ho
    exact absurd ho List.not_mem_nil
  · rw [if_neg hlength] at h
    obtain ⟨is, his, hmakes⟩ := Adapter.has_wrap_iff.mp h
    have hbytes : (0 + bytesOf is : Int) ≤ max maxBytes 0 := bytes_inside hmakes
    obtain ⟨rs, hsent, hprefix, hwhen⟩ := outbound_of_makes hmakes
    refine ⟨is, his, handed_of_makes hmakes, by omega, ?_, rs, hsent, hprefix, ?_⟩
    · intro hinside
      have hover : maxBytes < (0 + bytesOf os : Int) := bytes_of_raised hmakes hinside houtside
      omega
    · intro hne
      obtain ⟨hended, -, hnone⟩ := hwhen hne
      exact ⟨.inr hended, hnone⟩

/-- **Within the limit the middleware does not show.**  An application that raises the
exception only when it is handed it has the same dialogues with and without the middleware, as
far as the body is within the limit. -/
theorem within_limit_iff (hlength : lengthRefused maxBytes scope = false)
    (happ : Honest app) (houtside : .error .requestBodyTooLarge ∉ inbound os)
    (hsmall : (bytesOf os : Int) ≤ maxBytes) : (call maxBytes scope app).Has os ↔ app.Has os := by
  unfold call
  split
  · rfl
  · rw [if_neg (Bool.eq_false_iff.mp hlength), Adapter.has_wrap_iff]
    have hcount : (0 + bytesOf os : Int) ≤ maxBytes := by omega
    constructor
    · intro h
      obtain ⟨is, his, hmakes⟩ := h
      have hended : .finished (.error .requestBodyTooLarge) ∉ is := by
        intro hmem
        have hover : maxBytes < (0 + bytesOf os : Int) :=
          bytes_of_raised hmakes (happ is his hmem) houtside
        omega
      rwa [← eq_of_makes hmakes hcount hended]
    · intro h
      exact ⟨os, h, makes_self h hcount fun hmem => houtside (happ os h hmem)⟩

end Calls

end BodyLimit

/-! ### An application that reads the body -/

/-- The states of an application that reads the body and answers it. -/
inductive ReaderState where
  | reading
  | answering (left : List AsgiSent)
  | failed (e : AsgiError)

def bodyReader : AsgiApp where
  State := ReaderState
  start := .reading
  move
    | .reading => .receive fun
        | .ok (.httpRequest _ true) => .reading
        | .ok _ => .answering [.responseStart 200 [], .responseBody [] false]
        | .error e => .failed e
    | .answering [] => .finish (.ok ())
    | .answering (o :: os) => .send o (.answering os)
    | .failed e => .finish (.error e)

theorem honest_bodyReader : BodyLimit.Honest bodyReader := by
  have hfrom : ∀ s es, From bodyReader.move s es →
      .finished (.error .requestBodyTooLarge) ∈ es →
        s = .failed .requestBodyTooLarge ∨ .error .requestBodyTooLarge ∈ inbound es := by
    intro s es h hended
    induction h with
    | nil s => exact absurd hended List.not_mem_nil
    | receive hmove x rest ih =>
        rename_i s next es
        right
        rcases List.mem_cons.mp hended with heq | hlater
        · cases heq
        · rcases ih hlater with hfailed | hin
          · cases s with
            | reading =>
                cases hmove
                match x with
                | .ok (.httpRequest _ true) => cases hfailed
                | .ok (.httpRequest _ false) => cases hfailed
                | .ok (.other _) => cases hfailed
                | .error e =>
                    cases hfailed
                    exact List.mem_cons_self
            | answering left => cases left <;> cases hmove
            | failed e => cases hmove
          · exact List.mem_cons_of_mem _ hin
    | send hmove rest ih =>
        rename_i s next o es
        rcases List.mem_cons.mp hended with heq | hlater
        · cases heq
        · rcases ih hlater with hfailed | hin
          · cases s with
            | reading => cases hmove
            | answering left =>
                cases left with
                | nil => cases hmove
                | cons o os =>
                    cases hmove
                    cases hfailed
            | failed e => cases hmove
          · exact .inr hin
    | finish hmove =>
        rename_i s r
        cases List.mem_singleton.mp hended
        cases s with
        | reading => cases hmove
        | answering left => cases left <;> cases hmove
        | failed e =>
            cases hmove
            exact .inl rfl
  intro es h hended
  rcases hfrom _ es h hended with hstart | hin
  · cases hstart
  · exact hin

/-- A request for the accidents without headers. -/
def plainScope : AsgiScope := ⟨⟨"http", "/api/v1/accidents", some "10.0.0.1"⟩, "https", []⟩

/-- The second message is over the limit, and the application is handed the exception. -/
theorem body_limit_holds_reader :
    ∃ is, bodyReader.Has is ∧ (bytesOf is : Int) ≤ 3 ∧
      (inbound is)[0]? = some (.ok (.httpRequest [1, 2] true)) ∧
      (inbound is)[1]? = some (.error .requestBodyTooLarge) ∧
      ∃ rs, outbound is ++ rs = BodyLimit.tooLargeReply 3 := by
  have h : (BodyLimit.call 3 plainScope bodyReader).Has
      ([.received (.ok (.httpRequest [1, 2] true)), .received (.ok (.httpRequest [3, 4] false))] ++
        replyEvents (BodyLimit.tooLargeReply 3) (.ok ())) :=
    .receive rfl _ (.receive rfl _ (.send rfl (.send rfl (.finish rfl))))
  obtain ⟨is, his, ⟨-, hhanded⟩, hbytes, -, rs, hsent, -⟩ :=
    BodyLimit.body_limit_holds rfl (by decide) (by
      intro hmem
      rcases List.mem_pair.mp hmem with heq | heq
      · cases heq
      · cases heq) h
  exact ⟨is, his, hbytes, hhanded [] _ _ rfl, hhanded [_] _ _ rfl, rs, hsent.symm⟩

theorem within_limit_reader :
    (BodyLimit.call 3 plainScope bodyReader).Has
      ([.received (.ok (.httpRequest [1, 2] true)), .received (.ok (.httpRequest [3] false))] ++
        replyEvents [.responseStart 200 [], .responseBody [] false] (.ok ())) :=
  (BodyLimit.within_limit_iff rfl honest_bodyReader (by
    intro hmem
    rcases List.mem_pair.mp hmem with heq | heq
    · cases heq
    · cases heq) (by decide)).mpr
    (.receive rfl _ (.receive rfl _ (.send rfl (.send rfl (.finish rfl)))))

/-! ## Security headers -/

/-- What the middleware reads of the settings. -/
structure MiddlewareSettings where
  maxRawPayloadBytes : Int
  requestBodyOverheadBytes : Int
  securityHeadersEnabled : Bool
  hstsEnabled : Bool
  hstsMaxAgeSeconds : Nat
deriving DecidableEq, Repr

namespace SecurityHeaders

/-- `_BASE_HEADERS`. -/
def baseHeaders : List (String × String) :=
  [("x-content-type-options", "nosniff"),
    ("x-frame-options", "DENY"),
    ("referrer-policy", "no-referrer"),
    ("content-security-policy", "default-src 'none'"),
    ("permissions-policy", "accelerometer=(), camera=(), geolocation=(), gyroscope=(), " ++
      "magnetometer=(), microphone=(), payment=(), usb=()"),
    ("cross-origin-opener-policy", "same-origin"),
    ("cross-origin-resource-policy", "same-site")]

def shouldHsts (settings : MiddlewareSettings) (scope : AsgiScope) : Bool :=
  settings.hstsEnabled && (scope.scheme == "https" ||
    (headerValue "x-forwarded-proto" scope.headers).getD "" == "https")

/-- The headers that a response to this request is to have. -/
def required (settings : MiddlewareSettings) (scope : AsgiScope) : List (String × String) :=
  baseHeaders ++
    (if shouldHsts settings scope then
      [("strict-transport-security",
        "max-age=" ++ toString settings.hstsMaxAgeSeconds ++ "; includeSubDomains")]
    else []) ++
    if "/api/".isPrefixOf scope.path ∨ scope.path = "/metrics" then [("cache-control", "no-store")]
    else []

/-- `secure_send`: what a start does not name is appended to it. -/
def secureSend (settings : MiddlewareSettings) (scope : AsgiScope) : AsgiSent → AsgiSent
  | .responseStart status headers =>
      .responseStart status
        (headers ++ (required settings scope).filter fun h => decide (h.1 ∉ headerNames headers))
  | o => o

/-- `SecurityHeadersMiddleware.__call__`. -/
def call (settings : MiddlewareSettings) (scope : AsgiScope) (app : AsgiApp) : AsgiApp :=
  if scope.type ≠ "http" then app
  else (Adapter.rewrites (secureSend settings scope)).wrap app

end SecurityHeaders

/-! ## The stack -/

/-- The response of the rate limiter to a request it turns away. -/
def rateLimitedReply (retryAfter : Int) (body : ErrorBody) : List AsgiSent :=
  [.responseStart 429
      [("content-type", "application/json"), ("content-length", toString body.dumps.length),
        ("retry-after", toString retryAfter)],
    .responseBody body.dumps false]

/-- `InMemoryRateLimitMiddleware.__call__` around an application, at a reading of the clock. -/
def rateLimit (limiter : RateLimiter) (now : ℚ) (scope : AsgiScope) (app : AsgiApp) : AsgiApp :=
  match (limiter.call scope.toHttpScope now).1 with
  | .limited retryAfter body => Program.reply (rateLimitedReply retryAfter body) (.ok ())
  | _ => app

/-- `_add_middleware`.  The layers for trusted hosts and for CORS come with the framework; where
they are not configured they are the identity. -/
def addMiddleware [PyText] (settings : MiddlewareSettings) (limiter : RateLimiter) (now : ℚ)
    (trustedHost cors : AsgiApp → AsgiApp) (scope : AsgiScope) (routes : AsgiApp) : AsgiApp :=
  let app := rateLimit limiter now scope (trustedHost routes)
  let app := cors (BodyLimit.call
    (settings.maxRawPayloadBytes + settings.requestBodyOverheadBytes) scope app)
  if settings.securityHeadersEnabled then SecurityHeaders.call settings scope app else app

/-- One start, and a body only after it; `started` says whether there was a start before. -/
def oneResponse : Bool → List AsgiSent → Bool
  | _, [] => true
  | started, .responseStart _ _ :: os => !started && oneResponse true os
  | started, .responseBody _ _ :: os => started && oneResponse started os
  | started, .other _ :: os => oneResponse started os

/-- The application answers a request once. -/
def AnswersOnce (app : AsgiApp) : Prop :=
  ∀ es, app.Has es → oneResponse false (outbound es) = true

/-! ### One response -/

theorem oneResponse_append (started : Bool) (xs ys : List AsgiSent) :
    oneResponse started (xs ++ ys) =
      (oneResponse started xs && oneResponse (started || xs.any AsgiSent.isStart) ys) := by
  induction xs generalizing started with
  | nil => simp [oneResponse]
  | cons o xs ih =>
      cases o with
      | responseStart status headers => simp [oneResponse, ih, AsgiSent.isStart, Bool.and_assoc]
      | responseBody body moreBody => simp [oneResponse, ih, AsgiSent.isStart, Bool.and_assoc]
      | other type => simp [oneResponse, ih, AsgiSent.isStart]

theorem oneResponse_of_prefix {started : Bool} {xs ys : List AsgiSent} (h : xs <+: ys)
    (hys : oneResponse started ys = true) : oneResponse started xs = true := by
  obtain ⟨rest, rfl⟩ := h
  rw [oneResponse_append] at hys
  exact (Bool.and_eq_true_iff.mp hys).1

theorem answersOnce_reply {os : List AsgiSent} (r : Except AsgiError Unit)
    (hos : oneResponse false os = true) : AnswersOnce (Program.reply os r) := by
  intro es h
  exact oneResponse_of_prefix (outbound_prefix_of_reply (Program.has_reply_iff.mp h)) hos

/-- The 413 comes only where there was no start. -/
theorem AnswersOnce.bodyLimit [PyText] {app : AsgiApp} (h : AnswersOnce app) (maxBytes : Int)
    (scope : AsgiScope) : AnswersOnce (BodyLimit.call maxBytes scope app) := by
  unfold BodyLimit.call
  split
  · exact h
  · split
    · exact answersOnce_reply _ rfl
    · intro os hos
      obtain ⟨is, his, hmakes⟩ := Adapter.has_wrap_iff.mp hos
      obtain ⟨rs, hsent, hprefix, hwhen⟩ := BodyLimit.outbound_of_makes hmakes
      rw [hsent, oneResponse_append, h is his, Bool.true_and]
      cases rs with
      | nil => rfl
      | cons o rs =>
          obtain ⟨-, -, hnone⟩ := hwhen (List.cons_ne_nil o rs)
          have hany : (outbound is).any AsgiSent.isStart = false := by
            rw [List.any_eq_false]
            intro o' ho'
            rw [hnone o' ho']
            exact Bool.false_ne_true
          rw [hany]
          exact oneResponse_of_prefix hprefix rfl

theorem AnswersOnce.rateLimit {app : AsgiApp} (h : AnswersOnce app) (limiter : RateLimiter) (now : ℚ)
    (scope : AsgiScope) : AnswersOnce (Atlas.rateLimit limiter now scope app) := by
  unfold Atlas.rateLimit
  split
  · exact answersOnce_reply _ rfl
  · exact h

namespace SecurityHeaders

variable {settings : MiddlewareSettings} {scope : AsgiScope}

theorem oneResponse_map_secureSend (started : Bool) (os : List AsgiSent) :
    oneResponse started (os.map (secureSend settings scope)) = oneResponse started os := by
  induction os generalizing started with
  | nil => rfl
  | cons o os ih =>
      cases o with
      | responseStart status headers => exact congrArg (!started && ·) (ih true)
      | responseBody body moreBody => exact congrArg (started && ·) (ih started)
      | other type => exact ih started

/-- The names of the headers to add are in lower case. -/
theorem toLower_required {h : String × String} (hh : h ∈ required settings scope) :
    h.1.toLower = h.1 := by
  have hbase : ∀ h ∈ baseHeaders, h.1.toLower = h.1 := by decide +kernel
  have hsts : "strict-transport-security".toLower = "strict-transport-security" := by decide +kernel
  have hcacheControl : "cache-control".toLower = "cache-control" := by decide +kernel
  unfold required at hh
  rcases List.mem_append.mp hh with hfirst | hcache
  · rcases List.mem_append.mp hfirst with hin | hhsts
    · exact hbase h hin
    · split at hhsts
      · rw [List.mem_singleton.mp hhsts]
        exact hsts
      · exact absurd hhsts List.not_mem_nil
  · split at hcache
    · rw [List.mem_singleton.mp hcache]
      exact hcacheControl
    · exact absurd hcache List.not_mem_nil

/-- A start that was sent through the middleware names every header. -/
theorem named_of_secureSend {o : AsgiSent} {status : Nat} {headers : List (String × String)}
    (ho : secureSend settings scope o = .responseStart status headers) {h : String × String}
    (hh : h ∈ required settings scope) : h.1 ∈ headerNames headers := by
  cases o with
  | responseStart status' own =>
      obtain ⟨-, rfl⟩ := AsgiSent.responseStart.inj ho
      unfold headerNames
      rw [List.map_append, List.mem_append]
      by_cases hown : h.1 ∈ headerNames own
      · exact .inl hown
      · refine .inr (List.mem_map.mpr ⟨h, ?_, toLower_required hh⟩)
        exact List.mem_filter.mpr ⟨hh, decide_eq_true hown⟩
  | responseBody body moreBody => cases ho
  | other type => cases ho

end SecurityHeaders

/-- **What leaves the stack.**  Whatever the layers of the framework and the routes do, as long
as they answer once: with the body limit and the rate limiter in between a request is still
answered once, and each response that leaves the stack, a 413 or a 429 too, names every security
header. -/
theorem stack_answers [PyText] {settings : MiddlewareSettings} {limiter : RateLimiter} {now : ℚ}
    {trustedHost cors : AsgiApp → AsgiApp} {scope : AsgiScope} {routes : AsgiApp}
    (hhttp : scope.type = "http") (hsecure : settings.securityHeadersEnabled = true)
    (htrusted : ∀ app, AnswersOnce app → AnswersOnce (trustedHost app))
    (hcors : ∀ app, AnswersOnce app → AnswersOnce (cors app)) (hroutes : AnswersOnce routes)
    {os : AsgiEvents} (h : (addMiddleware settings limiter now trustedHost cors scope routes).Has os) :
    oneResponse false (outbound os) = true ∧
      ∀ status headers, .responseStart status headers ∈ outbound os →
        ∀ h ∈ SecurityHeaders.required settings scope, h.1 ∈ headerNames headers := by
  unfold addMiddleware SecurityHeaders.call at h
  dsimp only at h
  rw [if_pos hsecure, if_neg (not_not.mpr hhttp)] at h
  obtain ⟨is, his, hsent⟩ := Adapter.outbound_of_has_rewrites h
  have honce := hcors _ (((htrusted routes hroutes).rateLimit limiter now scope).bodyLimit
    (settings.maxRawPayloadBytes + settings.requestBodyOverheadBytes) scope)
  rw [hsent]
  refine ⟨?_, ?_⟩
  · rw [SecurityHeaders.oneResponse_map_secureSend]
    exact honce is his
  · intro status headers hstart h hh
    obtain ⟨o, -, ho⟩ := List.mem_map.mp hstart
    exact SecurityHeaders.named_of_secureSend ho hh

/-- The default limits, with HSTS. -/
def hstsSettings : MiddlewareSettings := ⟨1048576, 65536, true, true, 31536000⟩

/-- The routes answer 200, and the stack adds what is missing. -/
theorem stack_answers_plain :
    ∃ headers, "strict-transport-security" ∈ headerNames headers ∧
      (addMiddleware hstsSettings (RateLimiter.create 0 60) 0 id id plainScope
        (Program.reply [.responseStart 200 [], .responseBody [] false] (.ok ()))).Has
          (replyEvents [.responseStart 200 headers, .responseBody [] false] (.ok ())) := by
  have h : (addMiddleware hstsSettings (RateLimiter.create 0 60) 0 id id plainScope
      (Program.reply [.responseStart 200 [], .responseBody [] false] (.ok ()))).Has
        (replyEvents ([.responseStart 200 [], .responseBody [] false].map
          (SecurityHeaders.secureSend hstsSettings plainScope)) (.ok ())) :=
    .send rfl (.send rfl (.finish rfl))
  have hanswers := stack_answers rfl rfl (fun _ h => h) (fun _ h => h)
    (answersOnce_reply (.ok ()) rfl) h
  rw [outbound_replyEvents] at hanswers
  have hrequired : ("strict-transport-security", "max-age=31536000; includeSubDomains") ∈
      SecurityHeaders.required hstsSettings plainScope := by decide +kernel
  exact ⟨_, hanswers.2 200 _ List.mem_cons_self _ hrequired, h⟩

end Atlas
