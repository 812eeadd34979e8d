import SmartGuard.Card.Identity
import SmartGuard.Library.RecordLanguage

/-!
# The conversation of the thread with the reader

What the thread asks of the reader is a word of a language: an opening, and then for
each request that it serves one answer of its own kind. An answer to a request for a
secret is an attempt, and if that fails a pause, a search and another attempt.

## Implementation notes

A transaction ends with the scope that opened it, which no operation shows. So what is
asked inside one is what directly follows its opening.
-/

namespace SmartGuard

open EventRun RecordLanguage RequestChannel StateLoop
open scoped Computability

variable {Backend Card π : Type} {P : Pcsc Backend Card π} {ident : Ident}

section Words

end Words

section Asked

variable {s t : π × List (CardOp Card)}

theorem traced_verifyUserPin {card : Card} {pin : Pin} {out : Except String Unit}
    (h : P.traced.verifyUserPin card pin s = (out, t)) :
    t.2 = s.2 ++ [.verifyUserPin card out.isOk] := by
  obtain ⟨rfl, rfl⟩ := Prod.mk.inj h
  rfl

theorem Verified.record {card : Card} {pin : Pin} (h : Verified P.traced card pin s t) :
    t.2 = s.2 ++ [.transaction card, .verifyUserPin card true] := by
  obtain ⟨u, begun, hverify⟩ := h
  have hbegun : u.2 = s.2 ++ [.transaction card] := (congrArg (·.2.2) begun).symm
  rw [traced_verifyUserPin hverify, hbegun, List.append_assoc]
  rfl

end Asked

section Discipline

end Discipline

section Owed

variable {requests : List (Request CardRequest)}

end Owed

section Run

variable {requestedIdent : Ident} {pin : Pin} {s₀ : π}
  {sys₀ sys : CardSystem Card (π × List (CardOp Card))} {log : List CardSeen}

end Run

section Sample

end Sample

end SmartGuard
