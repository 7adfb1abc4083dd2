/-
Download tickets (`create_batch_download_ticket`, `batch_download_by_ticket` and
`prune_expired_batch_download_tokens` in storage.py).

Each call reads the clock before it takes the lock, so the times of the calls, in the order in
which they have it, may go back.  The main result is `Burla.Files.redeemed_iff`: whether a ticket is
redeemed, told from the calls before alone.
-/
import Burla.Files.Archive
import Burla.Lib.Dict
import Mathlib.Algebra.Order.Ring.Rat

namespace Burla.Files

local instance lawfulBEq_token : LawfulBEq Text := inferInstance

/-- What is kept of a ticket: what it is for, and `expires_at` in seconds. -/
structure Ticket where
  requests : Requests
  archiveName : Text
  expiresAt : ℚ

/-- `BATCH_DOWNLOAD_TOKEN_TTL_SECONDS` -/
def batchDownloadTokenTtlSeconds : ℚ := 300

/-- `BATCH_DOWNLOAD_TOKENS` -/
abbrev Tokens := Dict Text Ticket

/-- `prune_expired_batch_download_tokens` -/
def pruneExpired (tokens : Tokens) (now : ℚ) : Tokens :=
  tokens.filterValues fun ticket => ¬ticket.expiresAt ≤ now

inductive TicketCall
  /-- `create_batch_download_ticket`, with the token that it draws. -/
  | create (payload : DownloadPayload) (now : ℚ) (token : Text)
  /-- `batch_download_by_ticket` -/
  | redeem (token : Text) (now : ℚ)

/-- What a redemption is answered with; nothing is a 404. -/
def redeem (tokens : Tokens) (token : Text) (now : ℚ) : Option Ticket :=
  (pruneExpired tokens now).get token

/-- What a call leaves of the tokens. -/
def TicketCall.run (tokens : Tokens) : TicketCall → Tokens
  | .create payload now token =>
    match parseBatchDownloadPayload payload with
    | .error _ => tokens
    | .ok (requests, archiveName) =>
      (pruneExpired tokens now).set token
        ⟨requests, archiveName, now + batchDownloadTokenTtlSeconds⟩
  | .redeem token now => (pruneExpired tokens now).pop token

/-- The tokens after calls, the newest first. -/
def tokensAfter : List TicketCall → Tokens
  | [] => .empty
  | call :: calls => call.run (tokensAfter calls)

/-- The call gives out a token, with this ticket. -/
def TicketCall.Issues (call : TicketCall) (token : Text) (ticket : Ticket) : Prop :=
  ∃ payload now, call = .create payload now token ∧
    parseBatchDownloadPayload payload = .ok (ticket.requests, ticket.archiveName) ∧
    ticket.expiresAt = now + batchDownloadTokenTtlSeconds

/-- The call leaves a ticket alone: it neither gives out its token again nor redeems it, nor comes,
by its own clock, when the ticket has expired. -/
def TicketCall.Spares (token : Text) (ticket : Ticket) : TicketCall → Prop
  | .create payload now token' =>
    (parseBatchDownloadPayload payload).isOk → now < ticket.expiresAt ∧ token' ≠ token
  | .redeem token' now => now < ticket.expiresAt ∧ token' ≠ token

section Tickets

variable {tokens : Tokens} {token : Text} {ticket : Ticket} {call : TicketCall}
  {calls : List TicketCall} {now : ℚ}

lemma get_pruneExpired : (pruneExpired tokens now).get token = some ticket ↔
    tokens.get token = some ticket ∧ now < ticket.expiresAt := by
  rw [pruneExpired, Dict.get_filterValues, Option.filter_eq_some_iff, decide_eq_true_iff, not_le]

/-- **What a call does to a token**: it gives it out, or leaves its ticket alone. -/
lemma get_run : (call.run tokens).get token = some ticket ↔
    call.Issues token ticket ∨ tokens.get token = some ticket ∧ call.Spares token ticket := by
  cases call with
  | redeem token' time =>
    have hissues : ¬(TicketCall.redeem token' time).Issues token ticket := by
      rintro ⟨_, _, h, -⟩
      cases h
    rw [TicketCall.run, Dict.get_pop, or_iff_right hissues, TicketCall.Spares]
    split_ifs with heq
    · exact iff_of_false (by rintro ⟨⟩) fun h => h.2.2 heq.symm
    · rw [get_pruneExpired]
      exact and_congr_right fun _ => (and_iff_left (Ne.symm heq)).symm
  | create payload time token' =>
    rw [TicketCall.run, TicketCall.Spares]
    cases hparse : parseBatchDownloadPayload payload with
    | error e =>
      have hissues : ¬(TicketCall.create payload time token').Issues token ticket := by
        rintro ⟨payload', _, h, hok, -⟩
        obtain ⟨rfl, -, -⟩ := TicketCall.create.inj h
        cases hparse.symm.trans hok
      rw [or_iff_right hissues]
      exact (and_iff_left (by rintro ⟨⟩)).symm
    | ok answer =>
      obtain ⟨requests, archiveName⟩ := answer
      dsimp only
      rw [Dict.get_set]
      split_ifs with heq
      · subst heq
        constructor
        · intro h
          obtain rfl := Option.some.inj h
          exact .inl ⟨payload, time, rfl, hparse, rfl⟩
        · rintro (⟨payload', time', h, hok, hexpires⟩ | ⟨-, hspares⟩)
          · obtain ⟨rfl, rfl, -⟩ := TicketCall.create.inj h
            obtain ⟨rfl, rfl⟩ := Prod.mk.inj (Except.ok.inj (hparse.symm.trans hok))
            rw [← hexpires]
          · exact absurd rfl (hspares rfl).2
      · have hissues : ¬(TicketCall.create payload time token').Issues token ticket := by
          rintro ⟨_, _, h, -⟩
          exact heq (TicketCall.create.inj h).2.2.symm
        rw [or_iff_right hissues, get_pruneExpired]
        exact and_congr_right fun _ => ⟨fun h _ => ⟨h, Ne.symm heq⟩, fun h => (h rfl).1⟩

/-- A token is there if it was given out, and the calls since then leave its ticket alone. -/
lemma get_tokensAfter : (tokensAfter calls).get token = some ticket ↔
    ∃ since issue before, calls = since ++ issue :: before ∧ issue.Issues token ticket ∧
      ∀ call ∈ since, call.Spares token ticket := by
  induction calls with
  | nil =>
    refine iff_of_false (fun h => nomatch h) ?_
    rintro ⟨since, issue, before, h, -⟩
    exact List.append_ne_nil_of_right_ne_nil _ (List.cons_ne_nil _ _) h.symm
  | cons call calls ih =>
    rw [tokensAfter, get_run, ih]
    constructor
    · rintro (hissues | ⟨⟨since, issue, before, rfl, hissues, hsince⟩, hspares⟩)
      · exact ⟨[], call, calls, rfl, hissues, fun _ h => absurd h List.not_mem_nil⟩
      · exact ⟨call :: since, issue, before, rfl, hissues, List.forall_mem_cons.2 ⟨hspares, hsince⟩⟩
    · rintro ⟨_ | ⟨first, since⟩, issue, before, heq, hissues, hsince⟩
      · obtain ⟨rfl, -⟩ := List.cons.inj heq
        exact .inl hissues
      · obtain ⟨rfl, rfl⟩ := List.cons.inj heq
        obtain ⟨hspares, hsince⟩ := List.forall_mem_cons.1 hsince
        exact .inr ⟨⟨since, issue, before, rfl, hissues, hsince⟩, hspares⟩

/-- **A ticket is good once, and for five minutes**: after any calls, with whatever times they have
read, a redemption is answered with a ticket exactly when the token was given out for it, no call
since then has given it out or redeemed it, and neither one of them nor the redemption itself has
read a time of five minutes after the creation, or later. -/
theorem redeemed_iff : redeem (tokensAfter calls) token now = some ticket ↔
    ∃ since payload created before,
      calls = since ++ .create payload created token :: before ∧
      parseBatchDownloadPayload payload = .ok (ticket.requests, ticket.archiveName) ∧
      ticket.expiresAt = created + batchDownloadTokenTtlSeconds ∧ now < ticket.expiresAt ∧
      ∀ call ∈ since, call.Spares token ticket := by
  rw [redeem, get_pruneExpired, get_tokensAfter]
  constructor
  · rintro ⟨⟨since, _, before, heq, ⟨payload, created, rfl, hparse, hexpires⟩, hsince⟩, hnow⟩
    exact ⟨since, payload, created, before, heq, hparse, hexpires, hnow, hsince⟩
  · rintro ⟨since, payload, created, before, heq, hparse, hexpires, hnow, hsince⟩
    exact ⟨⟨since, _, before, heq, ⟨payload, created, rfl, hparse, hexpires⟩, hsince⟩, hnow⟩

end Tickets

end Burla.Files
