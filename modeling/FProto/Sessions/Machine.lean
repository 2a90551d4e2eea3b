import FProto.Foundation.Bytes

/-!
Owns `proto-core/session/machine.go`: the session statuses, the events, and
the transition table.

`Status` is a string type in the source, so a text without a name is a status
too; it has no transitions.
-/

namespace FProto.Sessions

open FProto.Foundation

/-- `Status`: the named texts, and every other one. -/
inductive Status where
  | connecting
  | active
  | sleeping
  | expired
  | unnamed (text : Bytes)
      (foreign : text ≠ utf8 "connecting" ∧ text ≠ utf8 "active" ∧ text ≠ utf8 "sleeping" ∧
        text ≠ utf8 "expired")
deriving DecidableEq

/-- `string(status)`. -/
def Status.text : Status → Bytes
  | .connecting => utf8 "connecting"
  | .active => utf8 "active"
  | .sleeping => utf8 "sleeping"
  | .expired => utf8 "expired"
  | .unnamed text _ => text

/-- `Status(text)`. -/
def Status.ofText (text : Bytes) : Status :=
  if connecting : text = utf8 "connecting" then .connecting
  else if active : text = utf8 "active" then .active
  else if sleeping : text = utf8 "sleeping" then .sleeping
  else if expired : text = utf8 "expired" then .expired
  else .unnamed text ⟨connecting, active, sleeping, expired⟩

theorem Status.text_ofText (text : Bytes) : (Status.ofText text).text = text := by
  unfold Status.ofText
  split
  · next same => exact same.symm
  · split
    · next same => exact same.symm
    · split
      · next same => exact same.symm
      · split
        · next same => exact same.symm
        · rfl

theorem Status.ofText_text (status : Status) : Status.ofText status.text = status := by
  cases status with
  | connecting => rfl
  | active => rfl
  | sleeping => rfl
  | expired => rfl
  | unnamed text foreign =>
      obtain ⟨connecting, active, sleeping, expired⟩ := foreign
      rw [Status.text, Status.ofText, dif_neg connecting, dif_neg active, dif_neg sleeping,
        dif_neg expired]

theorem Status.text_injective : Function.Injective Status.text := by
  intro left right same
  rw [← Status.ofText_text left, same, Status.ofText_text]

/-- `Event`, an integer type with six named values. -/
inductive Event where
  | handshakeOK
  | handshakeFail
  | packetReceived
  | idleTimeout
  | expiryTimeout
  | explicitLogout
  | unnamed (number : Int) (foreign : number < 0 ∨ 5 < number)
deriving DecidableEq

/-- `transitionResult`. A destroyed session has the zero status. -/
structure TransitionResult where
  next : Status := Status.ofText []
  destroyed : Bool := false
deriving DecidableEq

/-- `ErrInvalidTransition`, wrapped with the status or with event and status. -/
inductive TransitionError where
  | noTransitions (current : Status)
  | notValid (event : Event) (current : Status)
deriving DecidableEq

/-- The table `transitions`. -/
def transitions : Status → Option (Event → Option TransitionResult)
  | .connecting => some fun
      | .handshakeOK => some { next := .active }
      | .handshakeFail => some { destroyed := true }
      | _ => none
  | .active => some fun
      | .packetReceived => some { next := .active }
      | .idleTimeout => some { next := .sleeping }
      | .explicitLogout => some { next := .expired }
      | _ => none
  | .sleeping => some fun
      | .packetReceived => some { next := .active }
      | .expiryTimeout => some { next := .expired }
      | _ => none
  | _ => none

/-- `Transition`. -/
def transition (current : Status) (event : Event) : Except TransitionError TransitionResult :=
  match transitions current with
  | none => .error (.noTransitions current)
  | some events =>
      match events event with
      | none => .error (.notValid event current)
      | some result => .ok result

/-- A transition starts in a live status. One that does not destroy the session
leads to `active`, `sleeping` or `expired`. -/
theorem transition_ok {current : Status} {event : Event} {result : TransitionResult}
    (allowed : transition current event = .ok result) :
    (current = .connecting ∨ current = .active ∨ current = .sleeping) ∧
      (result.destroyed = false →
        result.next = .active ∨ result.next = .sleeping ∨ result.next = .expired) := by
  cases current with
  | connecting =>
      refine ⟨.inl rfl, ?_⟩
      cases event <;> cases allowed <;> simp
  | active =>
      refine ⟨.inr (.inl rfl), ?_⟩
      cases event <;> cases allowed <;> simp
  | sleeping =>
      refine ⟨.inr (.inr rfl), ?_⟩
      cases event <;> cases allowed <;> simp
  | expired => cases allowed
  | unnamed text foreign => cases allowed

end FProto.Sessions
