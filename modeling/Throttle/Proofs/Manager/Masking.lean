import Mathlib.Data.List.Forall2
import Throttle.Proofs.Manager.Order

/-!
  Credentials out of sight. Masking puts one fixed value in the place of every value of the
  `Authorization` header. An authorizer adds the credentials of a request only when it leaves, and
  what a manager does with a signed request is to hand it to the transport, so a manager with a
  masked authorizer does the same, with masked requests (`receive_masked`, `Actor.command_masked`,
  `Actor.signal_masked`). Two bearer tokens make the same authorizer once it is masked
  (`bearer_masked`).
-/

namespace Throttle

open Http Turn

/-! ## Requests -/

namespace Http

namespace Headers

/-- The values of a header, out of sight if they are credentials. -/
def maskedValues (n : HeaderName) (vs : List HeaderValue) : List HeaderValue :=
  if n = authorizationName then vs.map fun _ => ⟨[], true⟩ else vs

/-- The headers with one fixed value for every credential. -/
def masked (h : Headers) : Headers := ⟨h.fields.map fun p => (p.1, maskedValues p.1 p.2)⟩

/-- A diagnostic shows nothing of the credentials. -/
theorem redacted_masked (h : Headers) : h.masked.redacted = h.redacted := by
  have hfield (p : HeaderName × List HeaderValue) :
      ((maskedValues p.1 p.2).map fun v => (p.1.text, shown p.1 v)) =
        p.2.map fun v => (p.1.text, shown p.1 v) := by
    unfold maskedValues
    split
    · rename_i hname
      rw [List.map_map]
      refine List.map_congr_left fun v _ => ?_
      simp only [Function.comp_apply, shown, if_pos hname]
    · rfl
  unfold redacted toList masked
  simp only [List.flatMap_map, List.map_flatMap, List.map_map, Function.comp_def, hfield]

/-- Which value is set as credential cannot be seen. -/
theorem masked_insert (h : Headers) (u v : HeaderValue) :
    (h.insert authorizationName u).masked = (h.insert authorizationName v).masked := by
  unfold insert masked
  congr 1
  induction h.fields with
  | nil => rfl
  | cons p rest ih =>
    unfold update
    split
    · rename_i hname
      simp only [List.map_cons, maskedValues, if_pos hname, List.map_nil]
    · rw [List.map_cons, List.map_cons, ih]

/-- Two header maps have the same names in the same order, and the same values of all names but one,
of which they have as many. -/
def Alike (h k : Headers) : Prop :=
  List.Forall₂ (fun p q => p.1 = q.1 ∧ p.2.length = q.2.length ∧
    (p.1 ≠ authorizationName → p.2 = q.2)) h.fields k.fields

theorem masked_eq_iff {h k : Headers} : h.masked = k.masked ↔ h.Alike k := by
  have hfield (p q : HeaderName × List HeaderValue) :
      (p.1, maskedValues p.1 p.2) = (q.1, maskedValues q.1 q.2) ↔
        p.1 = q.1 ∧ p.2.length = q.2.length ∧ (p.1 ≠ authorizationName → p.2 = q.2) := by
    obtain ⟨n, us⟩ := p
    obtain ⟨k, vs⟩ := q
    rw [Prod.mk.injEq]
    refine and_congr_right fun hname => ?_
    dsimp only at hname
    subst hname
    unfold maskedValues
    by_cases hcredential : n = authorizationName
    · simp [hcredential, List.map_const', List.replicate_inj]
    · simp only [ne_eq, hcredential, not_false_eq_true, true_implies]
      exact ⟨fun hsame => ⟨congrArg List.length hsame, hsame⟩, And.right⟩
  unfold Alike masked
  rw [Headers.mk.injEq, ← List.forall₂_eq_eq_eq, List.forall₂_map_left_iff,
    List.forall₂_map_right_iff]
  simp only [hfield]

end Headers

namespace Request

/-- Two requests differ at most in the values of the header that carries credentials. -/
structure Alike (r r' : Request) : Prop where
  method : r.method = r'.method
  url : r.url = r'.url
  headers : r.headers.Alike r'.headers
  body : r.body = r'.body

/-- The request with its credentials out of sight. -/
def masked (r : Request) : Request := { r with headers := r.headers.masked }

theorem masked_eq_iff {r r' : Request} : r.masked = r'.masked ↔ r.Alike r' := by
  unfold masked
  rw [Request.mk.injEq, Headers.masked_eq_iff]
  exact ⟨fun ⟨hmethod, hurl, hheaders, hbody⟩ => ⟨hmethod, hurl, hheaders, hbody⟩,
    fun h => ⟨h.method, h.url, h.headers, h.body⟩⟩

end Request

end Http

namespace Authorizer

/-- Signs in the same way, but out of sight. -/
def masked (f : Authorizer) : Authorizer := fun r => (f r).map Request.masked

/-- Two tokens that can stand in a header sign alike. -/
theorem bearer_masked {s t : String} {u v : HeaderValue}
    (hs : HeaderValue.ofString? ("Bearer " ++ s) = some u)
    (ht : HeaderValue.ofString? ("Bearer " ++ t) = some v) :
    (bearer s).masked = (bearer t).masked := by
  funext r
  have hsame : (r.withHeader authorizationName { u with sensitive := true }).masked =
      (r.withHeader authorizationName { v with sensitive := true }).masked :=
    congrArg (fun h => { r with headers := h : Request }) (r.headers.masked_insert _ _)
  simp only [masked, bearer, hs, ht]
  exact congrArg Except.ok hsame

end Authorizer

/-! ## Turns -/

def Surroundings.masked (s : Surroundings) : Surroundings :=
  { s with authorizer := s.authorizer.masked }

def Output.masked : Output → Output
  | .transmit id r => .transmit id r.masked
  | o => o

/-- The same turn, with the requests that it hands out masked. -/
def Turn.masked (t : Turn α) : Turn α := { t with outputs := t.outputs.map Output.masked }

/-- Nothing is to be masked where nothing is handed out. -/
theorem map_masked {os : List Output} (h : sends os = []) : os.map Output.masked = os := by
  unfold sends at h
  rw [List.filterMap_eq_nil_iff] at h
  have hsame (o : Output) (ho : o ∈ os) : o.masked = id o := by
    have hnone := h o ho
    cases o with
    | transmit id r => cases hnone
    | _ => rfl
  exact (List.map_congr_left hsame).trans (List.map_id os)

theorem Turn.masked_bind (t : Turn α) (f : α → Turn β) :
    (t >>= f).masked = t.masked >>= fun a => (f a).masked := by
  cases ht : t.result with
  | error e =>
    have ht' : t.masked.result = .error e := ht
    rw [bind_of_error ht, bind_of_error ht']
    rfl
  | ok a =>
    have ht' : t.masked.result = .ok a := ht
    rw [bind_of_ok ht, bind_of_ok ht']
    exact congrArg (fun os => (⟨os, (f a).result⟩ : Turn β)) List.map_append

theorem masked_of_silent {t : Turn α} (h : sends t.outputs = []) : t.masked = t :=
  congrArg (fun os => { t with outputs := os : Turn α }) (map_masked h)

theorem sends_of_ends {t : Turn α} {P : α → List Output → Prop} (h : t.Ends P)
    (hP : ∀ a os, P a os → sends os = []) : sends t.outputs = [] := by
  cases ht : t.result with
  | error e => exact (h.quiet ht).sends_eq
  | ok a => exact hP a _ (h.result ht)

namespace Manager

variable {m : Manager} {s : Surroundings}

theorem activate_masked (s : Surroundings) (m : Manager) :
    activate s.masked m = (activate s m).masked := by
  have hsilent : sends (activate s m).outputs = [] :=
    sends_of_ends (activate_ends s m) fun _ _ h => h.sends_eq
  rw [masked_of_silent hsilent]
  rfl

theorem skipActive_masked (s : Surroundings) (p : Pending) (m : Manager) :
    m.skipActive s.masked p = (m.skipActive s p).masked := by
  unfold skipActive
  simp only [masked_bind, activate_masked]
  rfl

/-- Only here is a request signed. -/
theorem send_masked (s : Surroundings) (m : Manager) : m.send s.masked = (m.send s).masked := by
  cases hactive : m.active with
  | none =>
    rw [send_of_none hactive, send_of_none hactive]
    exact activate_masked s m.back
  | some p =>
    cases hgone : s.gone p.id with
    | true =>
      have hgone' : s.masked.gone p.id = true := hgone
      rw [send_of_gone hactive hgone, send_of_gone hactive hgone']
      exact skipActive_masked s p m
    | false =>
      have hlive : s.masked.gone p.id = false := hgone
      have hsign : s.masked.authorizer p.request = (s.authorizer p.request).map Request.masked := rfl
      cases hsigned : s.authorizer p.request with
      | error refusal =>
        rw [hsigned] at hsign
        rw [send_of_unsigned hactive hgone hsigned, send_of_unsigned hactive hlive hsign]
        simp only [masked_bind, activate_masked]
        rw [masked_of_silent (finish_quiet m.back _).sends_eq]
        rfl
      | ok signed =>
        rw [hsigned] at hsign
        rw [send_of_signed hactive hgone hsigned, send_of_signed hactive hlive hsign]
        rfl

theorem onFire_masked (s : Surroundings) (generation : Nat) (m : Manager) :
    m.onFire s.masked generation = (m.onFire s generation).masked := by
  unfold onFire
  split
  · rfl
  · cases m.phase with
    | idle => rfl
    | activating t => exact send_masked s m
    | sending => rfl
    | violationWait t => exact send_masked s m
    | suspended t =>
      simp only [masked_bind, activate_masked]
      rfl

/-- Only the alarm makes a manager send. -/
theorem masked_receive (s : Surroundings) (m : Manager) (msg : Message)
    (hmsg : ∀ generation, msg ≠ .fire generation) :
    (m.receive s msg).masked = m.receive s msg := by
  refine masked_of_silent (sends_of_ends (receive_ends s m msg) fun m' os h => ?_)
  rcases h.order with ⟨hnone, -⟩ | ⟨p, -, -, -, -, hfire⟩
  · exact hnone
  · exact absurd hfire (hmsg _)

/-- A manager handles a message in the same way whether credentials are masked or not. -/
theorem receive_masked (s : Surroundings) (m : Manager) (msg : Message) :
    m.receive s.masked msg = (m.receive s msg).masked := by
  cases msg with
  | seed reply => exact (masked_receive s m (.seed reply) nofun).symm
  | queue p => exact (masked_receive s m (.queue p) nofun).symm
  | fire generation => exact onFire_masked s generation m
  | reply result => exact (masked_receive s m (.reply result) nofun).symm

theorem conclude_masked (s : Surroundings) (result : Except TransportFailure Reply) (m : Manager) :
    m.conclude s.masked result = (m.conclude s result).masked := by
  have hsilent : sends (m.conclude s result).outputs = [] :=
    sends_of_ends (conclude_ends s result m) fun _ _ h => h.1.sends_eq
  exact (masked_of_silent hsilent).symm

end Manager

/-! ## Actors -/

namespace Actor

/-- The same step, with the requests that it hands out masked. -/
def Step.masked (x : Step) : Step := { x with outputs := x.outputs.map Output.masked }

theorem foldl_perform_masked (a : Actor) (os : List Output) :
    (os.map Output.masked).foldl perform a = os.foldl perform a := by
  induction os generalizing a with
  | nil => rfl
  | cons o os ih =>
    rw [List.map_cons, List.foldl_cons, List.foldl_cons, ih]
    cases o <;> rfl

theorem finish_masked (a : Actor) (stage : Stage) (holding : List Pending) (t : Turn Manager) :
    a.finish stage holding t.masked = (a.finish stage holding t).masked := by
  unfold finish Turn.masked Step.masked
  simp only [foldl_perform_masked]
  split <;> rfl

theorem close_masked (a : Actor) : a.close.masked = a.close := by
  have hsilent : sends (a.manager.close (queuedIn a.mailbox)).outputs = [] := by
    obtain ⟨os, hquiet, hos⟩ := Manager.close_outputs (queuedIn a.mailbox) a.manager
    rw [hos, sends_disarm, hquiet.sends_eq]
  unfold close
  dsimp only
  rw [← finish_masked, masked_of_silent hsilent]

theorem command_masked (s : Surroundings) (a : Actor) :
    a.command s.masked = (a.command s).map Step.masked := by
  unfold command
  split
  · rfl
  · split
    · split
      · rfl
      · rw [Option.map_some, close_masked]
    · dsimp only
      split
      · rw [Manager.receive_masked, finish_masked, Option.map_some]
      · rw [Manager.receive_masked, finish_masked, Option.map_some]
      · rw [Option.map_some, close_masked]

theorem signal_masked (s : Surroundings) (a : Actor) :
    a.signal s.masked = (a.signal s).map Step.masked := by
  unfold signal
  split
  · rfl
  · dsimp only
    split
    · rw [Manager.receive_masked, finish_masked, Option.map_some]
    · rw [Manager.receive_masked, finish_masked, Option.map_some]
    · rfl
    · rw [Manager.conclude_masked, finish_masked, Option.map_some]
    · rfl

end Actor

end Throttle
