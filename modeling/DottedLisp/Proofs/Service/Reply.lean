import DottedLisp.Proofs.Json.LongInteger
import DottedLisp.Proofs.Toplevel.Dialects
import DottedLisp.Settings

/-!
# Which lines have replies

A service replies to a line with values or with an error. There are two kinds of lines to which it
does not reply, the nesting limit apart (`Service.exists_reply_iff`):

* JSON with an integer of more digits than are taken, in whatever member it stands;
* a request, to a service for the loose notation, whose code breaks off behind a dot.

What a line is comes first (`Asks`, `Unread`), then what evaluating a code gives.
-/

namespace DottedLisp.Service

variable {service : Service} {line : List UInt8} {code : Text}

/-! ## Lines -/

/-- The line is a request to evaluate the code. -/
def Asks (service : Service) (line : List UInt8) (code : Text) : Prop :=
  ∃ s req, Utf8.decode line = .ok s ∧ Json.read service.top.limits.json s = .ok req ∧
    request req = .ok code

/-- The line is a text that cannot be read as JSON, for the given cause. -/
def Unread (service : Service) (line : List UInt8) (f : Json.ReadFailure) : Prop :=
  ∃ s, Utf8.decode line = .ok s ∧ Json.read service.top.limits.json s = .error f

theorem Asks.unique {code' : Text} (h : service.Asks line code) (h' : service.Asks line code') :
    code = code' := by
  obtain ⟨s, req, hs, hreq, hcode⟩ := h
  obtain ⟨s', req', hs', hreq', hcode'⟩ := h'
  obtain rfl : s = s' := Except.ok.inj (hs.symm.trans hs')
  obtain rfl : req = req' := Except.ok.inj (hreq.symm.trans hreq')
  exact Except.ok.inj (hcode.symm.trans hcode')

theorem answer_eq_of_asks (h : service.Asks line code) :
    service.answer line = service.evaluate code := by
  obtain ⟨s, req, hs, hreq, hcode⟩ := h
  simp only [answer, hs, hreq, hcode]

theorem answer_eq_of_longInteger {n : Nat} (h : service.Unread line (.longInteger n)) :
    service.answer line = Run.fail (.longInteger n) := by
  obtain ⟨s, hs, hread⟩ := h
  simp only [answer, hs, hread]

/-- **What a line can be.** It asks for a code, it stops the reader of JSON in one of two ways, or
it is refused. -/
theorem answer_cases (service : Service) (line : List UInt8) :
    (∃ code, service.Asks line code) ∨ (∃ n, service.Unread line (.longInteger n)) ∨
      service.Unread line .tooDeep ∨
      (∀ code, ¬service.Asks line code) ∧
        ∃ message, service.answer line = pure (.error message) := by
  cases hs : Utf8.decode line with
  | error f =>
    have hnone : ∀ code, ¬service.Asks line code := by simp [Asks, hs]
    have h : service.answer line = pure (.error (text "Invalid request: " ++ f.message)) := by
      simp only [answer, hs]
    exact .inr (.inr (.inr ⟨hnone, _, h⟩))
  | ok s =>
    cases hread : Json.read service.top.limits.json s with
    | error f =>
      cases f with
      | malformed f =>
        have hnone : ∀ code, ¬service.Asks line code := by simp [Asks, hs, hread]
        have h : service.answer line = pure (.error (text "Invalid request: " ++ f.message s)) := by
          simp only [answer, hs, hread]
        exact .inr (.inr (.inr ⟨hnone, _, h⟩))
      | longInteger n => exact .inr (.inl ⟨n, s, hs, hread⟩)
      | tooDeep => exact .inr (.inr (.inl ⟨s, hs, hread⟩))
    | ok req =>
      cases hcode : request req with
      | ok code => exact .inl ⟨code, s, req, hs, hread, hcode⟩
      | error message =>
        have hnone : ∀ code, ¬service.Asks line code := by simp [Asks, hs, hread, hcode]
        have h : service.answer line = pure (.error message) := by
          simp only [answer, hs, hread, hcode]
        exact .inr (.inr (.inr ⟨hnone, message, h⟩))

/-! ## Codes -/

theorem render_error {value : Expr} {f : Failure} (h : service.render value = .error f) :
    f = .tooDeep := by
  unfold render Expr.listedWithin at h
  split at h
  · split at h
    · cases h
    · cases h
      rfl
  · cases h

theorem mapM_render_error {values : List Expr} {f : Failure}
    (h : values.mapM service.render = .error f) : f = .tooDeep := by
  induction values with
  | nil => cases h
  | cons value values ih =>
    rw [List.mapM_cons] at h
    cases hvalue : service.render value with
    | error f' =>
      rw [hvalue] at h
      cases h
      exact render_error hvalue
    | ok s =>
      rw [hvalue] at h
      cases hvalues : values.mapM service.render with
      | error f' =>
        rw [hvalues] at h
        cases h
        exact ih hvalues
      | ok texts => rw [hvalues] at h; cases h

theorem present_error {answer : Answer} {f : Failure} (h : service.present answer = .error f) :
    f = .tooDeep := by
  cases answer with
  | one value =>
    cases hvalue : service.render value with
    | error f' =>
      rw [present, hvalue] at h
      cases h
      exact render_error hvalue
    | ok s => rw [present, hvalue] at h; cases h
  | many values =>
    cases hvalues : values.mapM service.render with
    | error f' =>
      rw [present, hvalues] at h
      cases h
      exact mapM_render_error hvalues
    | ok texts => rw [present, hvalues] at h; cases h

/-- What the service makes of a code, by what its evaluation gives. -/
theorem result_evaluate (service : Service) (code : Text) :
    (service.evaluate code).result = match (service.top.eval code).result with
      | .ok answer => (service.present answer).mapError .failure
      | .error (.error e) => .ok (.error e.message)
      | .error .tooDeep => .ok (.error (text "recursion too deep"))
      | .error .danglingDot => .error (.failure .danglingDot) :=
  rfl

/-- Where its values can be printed, a code has a reply unless it ends in a dangling dot. -/
theorem exists_evaluate_iff (hshow : ∀ answer, (service.top.eval code).result = .ok answer →
      service.present answer ≠ .error .tooDeep) :
    (∃ reply, (service.evaluate code).result = .ok reply) ↔
      (service.top.eval code).result ≠ .error .danglingDot := by
  rw [result_evaluate]
  cases hrun : (service.top.eval code).result with
  | ok answer =>
    cases hreply : service.present answer with
    | ok reply => simp [hreply, Except.mapError]
    | error f =>
      obtain rfl := present_error hreply
      exact absurd hreply (hshow answer hrun)
  | error f => cases f <;> simp

/-! ## Replies -/

/-- What a reply to a line says. -/
inductive Fits (service : Service) (line : List UInt8) : Reply → Prop
  /-- The line asks for a code, and these are its values. -/
  | values {code : Text} {answer : Answer} {reply : Reply} (hasks : service.Asks line code)
      (hvalues : (service.top.eval code).result = .ok answer)
      (hreply : service.present answer = .ok reply) : Fits service line reply
  /-- There are no values. -/
  | error {message : Text}
      (hnone : ∀ code answer, service.Asks line code →
        (service.top.eval code).result ≠ .ok answer) :
      Fits service line (.error message)

theorem Asks.fits {reply : Reply} (h : service.Asks line code)
    (hreply : (service.evaluate code).result = .ok reply) : service.Fits line reply := by
  rw [result_evaluate] at hreply
  cases hrun : (service.top.eval code).result with
  | ok answer =>
    cases hshown : service.present answer with
    | ok shown =>
      simp only [hrun, hshown, Except.mapError, Except.ok.injEq] at hreply
      exact .values h hrun (hreply ▸ hshown)
    | error f => simp [hrun, hshown, Except.mapError] at hreply
  | error f =>
    have hnone : ∀ code answer, service.Asks line code →
        (service.top.eval code).result ≠ .ok answer := by
      intro code' answer h' hvalues
      obtain rfl := h.unique h'
      cases hrun.symm.trans hvalues
    cases f with
    | error e =>
      simp only [hrun, Except.ok.injEq] at hreply
      exact hreply ▸ .error hnone
    | tooDeep =>
      simp only [hrun, Except.ok.injEq] at hreply
      exact hreply ▸ .error hnone
    | danglingDot => simp [hrun] at hreply

theorem fits_of_answer {reply : Reply} (hreply : (service.answer line).result = .ok reply) :
    service.Fits line reply := by
  rcases answer_cases service line with
    ⟨code, hasks⟩ | ⟨n, hlong⟩ | ⟨s, hs, hdeep⟩ | ⟨hnone, message, h⟩
  · rw [answer_eq_of_asks hasks] at hreply
    exact hasks.fits hreply
  · rw [answer_eq_of_longInteger hlong] at hreply
    cases hreply
  · simp only [answer, hs, hdeep] at hreply
    cases hreply
  · rw [h] at hreply
    cases hreply
    exact .error fun code _ hasks => absurd hasks (hnone code)

/-- **Which lines have replies.** As long as no nesting limit is hit in reading the JSON and in
printing the values, a line has a reply exactly if reading it meets no integer of too many digits
and the code it asks for does not break off behind a dot in loose text. Every reply has the values
of the code, or an error where there are none. Only a line with so many digits in a row can stop the
reading. -/
theorem exists_reply_iff (service : Service) (line : List UInt8)
    (hjson : ¬service.Unread line .tooDeep)
    (hshow : ∀ code answer, service.Asks line code → (service.top.eval code).result = .ok answer →
      service.present answer ≠ .error .tooDeep) :
    ((∃ reply, (service.answer line).result = .ok reply) ↔
      (∀ n, ¬service.Unread line (.longInteger n)) ∧
        ∀ code, service.Asks line code → ¬(service.top.loose = true ∧
          looseToDotted service.top.limits.groups code ≠ .error .tooDeep ∧
            Draft.BreaksOff (Token.scan code))) ∧
    (∀ reply, (service.answer line).result = .ok reply → service.Fits line reply) ∧
    ∀ s n, Utf8.decode line = .ok s →
      Json.read service.top.limits.json s = .error (.longInteger n) →
      Json.maxDigits < n ∧ ∃ before digits after, s = before ++ digits ++ after ∧
        digits.length = n ∧
        ∀ c ∈ digits, c.isAsciiDigit = true := by
  refine ⟨⟨?_, ?_⟩, fun reply => fits_of_answer, fun s n _ => Json.exists_digits_of_read⟩
  · rintro ⟨reply, hreply⟩
    constructor
    · intro n hlong
      rw [answer_eq_of_longInteger hlong] at hreply
      cases hreply
    · intro code hasks hdot
      rw [answer_eq_of_asks hasks] at hreply
      exact (exists_evaluate_iff fun answer => hshow code answer hasks).mp ⟨reply, hreply⟩
        (Toplevel.eval_eq_danglingDot_iff_breaksOff.mpr hdot)
  · rintro ⟨hlong, hdot⟩
    rcases answer_cases service line with ⟨code, hasks⟩ | ⟨n, hn⟩ | hdeep | ⟨-, message, h⟩
    · rw [answer_eq_of_asks hasks, exists_evaluate_iff fun answer => hshow code answer hasks, Ne,
        Toplevel.eval_eq_danglingDot_iff_breaksOff]
      exact hdot code hasks
    · exact absurd hn (hlong n)
    · exact absurd hdeep hjson
    · exact ⟨.error message, by rw [h]; rfl⟩

/-- The service with the settings that hold by default does not reply to a code that is a single
open group with nothing behind its dot. -/
theorem exists_reply_iff_dangling :
    let service := Settings.service [] none none none
    let line := "\x7b\"cmd\": \"eval\", \"code\": \"(a .\"\x7d".toUTF8.data.toList
    ¬service.Unread line .tooDeep ∧ service.Asks line (text "(a .") ∧
      ¬∃ reply, (service.answer line).result = .ok reply := by
  intro service line
  have hs : Utf8.decode line = .ok (text "\x7b\"cmd\": \"eval\", \"code\": \"(a .\"\x7d") := by
    decide +kernel
  have hread :
      Json.read service.top.limits.json (text "\x7b\"cmd\": \"eval\", \"code\": \"(a .\"\x7d") =
        .ok (.obj [(text "cmd", .str (text "eval")), (text "code", .str (text "(a ."))]) := rfl
  have hasks : service.Asks line (text "(a .") := ⟨_, _, hs, hread, by decide +kernel⟩
  have hjson : ¬service.Unread line .tooDeep := by
    rintro ⟨s, hs', hdeep⟩
    obtain rfl := Except.ok.inj (hs.symm.trans hs')
    cases hread.symm.trans hdeep
  have hdot : (service.top.eval (text "(a .")).result = .error .danglingDot := by decide +kernel
  refine ⟨hjson, hasks, fun hreply => ?_⟩
  have hshow : ∀ code answer, service.Asks line code → (service.top.eval code).result = .ok answer →
      service.present answer ≠ .error .tooDeep := by
    intro code answer hcode hvalues
    obtain rfl := hasks.unique hcode
    cases hdot.symm.trans hvalues
  exact ((exists_reply_iff service line hjson hshow).1.mp hreply).2 _ hasks
    (Toplevel.eval_eq_danglingDot_iff_breaksOff.mp hdot)

end DottedLisp.Service
