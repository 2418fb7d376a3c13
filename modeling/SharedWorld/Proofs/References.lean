import Mathlib.Data.List.Nodup
import SharedWorld.Cache.Resolution
import SharedWorld.Proofs.Moves
import SharedWorld.Proofs.Tables

/-!
# References on cache entries

An entry that is referenced is never evicted, so what its readers were told of it stays true: a
payload that was ready stays ready, and a ticket is delivered nothing else than the payload that the
entry then holds. This is stated for one key at a time (`Cache.Evolves`) and shown of each
operation, together with its effect on the references of every key.
-/

namespace SharedWorld

/-! ## Payloads that fit their keys -/

/-- Whatever the loader brings for a key fits it. -/
def Loader.Tells {κ π : Type} (Fits : κ → π → Prop) (loader : Loader κ π) : Prop :=
  ∀ {started key payload}, (key, LoadOutcome.loaded payload) ∈ loader.reports started →
    Fits key payload

/-- What is read from a store fits its key if all that the store has does. -/
theorem Loader.immediate_tells {κ π : Type} {Fits : κ → π → Prop} {store : κ → LoadOutcome π}
    (h : ∀ {key payload}, store key = .loaded payload → Fits key payload) :
    (Loader.immediate store).Tells Fits := by
  intro started key payload hmem
  obtain ⟨other, -, hreport⟩ := List.mem_map.mp hmem
  obtain ⟨rfl, hloaded⟩ := Prod.mk.inj hreport
  exact h hloaded

/-- What an action reports for a key fits it. -/
def Server.Action.Tells (Fits : CacheKey → Bundle → Prop) : Server.Action → Prop
  | .report key outcome => ∀ payload, outcome = .loaded payload → Fits key payload
  | _ => True

namespace Cache

open Std

variable {κ π : Type} [Ord κ]

/-- How many references readers hold on the entry under `key`. -/
def refs (cache : Cache κ π) (key : κ) : Nat := (cache.entries.get? key).elim 0 Entry.refs

/-- Whether the ticket is among the waiters of a pending entry under `key`. -/
def Lists (cache : Cache κ π) (key : κ) (ticket : Ticket) : Prop :=
  ∃ waiters refs, cache.entries.get? key = some ⟨.pending waiters, refs⟩ ∧ ticket ∈ waiters

/-- The idle entries are listed once each, and are ready and unreferenced; payloads fit their keys,
wherever they are on their way; and the tickets in use were issued. -/
structure Sound (Fits : κ → π → Prop) (cache : Cache κ π) : Prop where
  idle_nodup : cache.idle.Nodup
  idle_ready : ∀ {key}, key ∈ cache.idle →
    ∃ payload, cache.entries.get? key = some ⟨.ready payload, 0⟩
  ready_fits : ∀ {key payload}, cache.peek? key = some payload → Fits key payload
  arrived_fits : ∀ {key payload}, (key, LoadOutcome.loaded payload) ∈ cache.arrived →
    Fits key payload
  loader_fits : ∀ {started key payload},
    (key, LoadOutcome.loaded payload) ∈ cache.loader.reports started → Fits key payload
  listed_lt : ∀ {key ticket}, cache.Lists key ticket → ticket < cache.nextTicket
  delivered_lt : ∀ {ticket outcome}, cache.delivered.get? ticket = some outcome →
    ticket < cache.nextTicket

/-- A new cache holds nothing that would not fit, and its loader will bring nothing of the kind. -/
theorem sound_new {Fits : κ → π → Prop} (idleCapacity : Nat) {loader : Loader κ π}
    (h : loader.Tells Fits) : (new idleCapacity loader).Sound Fits where
  idle_nodup := List.nodup_nil
  idle_ready := nofun
  ready_fits := nofun
  arrived_fits := nofun
  loader_fits := h
  listed_lt := by
    rintro _ _ ⟨_, _, hentry, _⟩
    cases hentry
  delivered_lt := nofun

/-- A resolution of `key` tells nothing that the entry under `key` does not hold. -/
def Holds (cache : Cache κ π) (key : κ) : Resolution κ π → Prop
  | .settled outcome => ∀ payload, outcome = some (.loaded payload) →
    cache.peek? key = some payload
  | .waiting _ ticket => ticket < cache.nextTicket ∧
    (∀ other, cache.Lists other ticket → other = key) ∧
    ∀ payload, cache.delivered.get? ticket = some (.loaded payload) →
      cache.peek? key = some payload

/-- What was true of the entry under `key` for its readers is still true. -/
structure Evolves (before after : Cache κ π) (key : κ) : Prop where
  keeps : ∀ {payload}, before.peek? key = some payload → after.peek? key = some payload
  holds : ∀ {resolution}, before.Holds key resolution → after.Holds key resolution

/-- An entry evolves into itself. -/
theorem Evolves.refl (cache : Cache κ π) (key : κ) : cache.Evolves cache key := ⟨id, id⟩

/-- An entry evolves step by step. -/
theorem Evolves.trans {before middle after : Cache κ π} {key : κ}
    (first : before.Evolves middle key) (rest : middle.Evolves after key) :
    before.Evolves after key :=
  ⟨fun h => rest.keeps (first.keeps h), fun h => rest.holds (first.holds h)⟩

/-- A ticket that brings a payload was delivered it. -/
theorem delivered_of_outcome? {cache : Cache κ π} {key : κ} {ticket : Ticket} {payload : π}
    (h : (Resolution.waiting key ticket).outcome? cache = some (.loaded payload)) :
    cache.delivered.get? ticket = some (.loaded payload) := by
  simp only [Resolution.outcome?, Resolution.tryTake, outcomeFor?] at h
  cases hdelivered : cache.delivered.get? ticket with
  | some outcome =>
    rw [hdelivered] at h
    exact h
  | none =>
    by_cases hawaits : cache.awaits key ticket = true
    · simp only [hdelivered, if_pos hawaits, reduceCtorEq] at h
    · simp only [hdelivered, if_neg hawaits, Option.some.injEq, reduceCtorEq] at h

/-- The outcome of a resolution that holds is what the entry holds. -/
theorem Holds.peek? {cache : Cache κ π} {key : κ} {resolution : Resolution κ π} {payload : π}
    (h : cache.Holds key resolution)
    (houtcome : resolution.outcome? cache = some (.loaded payload)) :
    cache.peek? key = some payload := by
  cases resolution with
  | settled outcome => exact h payload houtcome
  | waiting other ticket => exact h.2.2 payload (delivered_of_outcome? houtcome)

/-- A payload is ready under a key just if the entry says so. -/
theorem peek?_eq_some_iff {cache : Cache κ π} {key : κ} {payload : π} :
    cache.peek? key = some payload ↔
      ∃ refs, cache.entries.get? key = some ⟨.ready payload, refs⟩ := by
  unfold peek?
  cases cache.entries.get? key with
  | none => simp only [reduceCtorEq, exists_false]
  | some entry =>
    obtain ⟨state, refs⟩ := entry
    cases state with
    | pending waiters => simp
    | ready payload' => simp
    | failed => simp

/-! ## Caches with the same readers -/

/-- The entry under `key` is the same, up to the number of its references. -/
def SameState (before after : Cache κ π) (key : κ) : Prop :=
  (after.entries.get? key).map Entry.state = (before.entries.get? key).map Entry.state

/-- In the same state, the same payload is ready. -/
theorem SameState.peek? {before after : Cache κ π} {key : κ} (h : before.SameState after key) :
    after.peek? key = before.peek? key := by
  unfold SameState at h
  unfold Cache.peek?
  cases hbefore : before.entries.get? key with
  | none =>
    rw [hbefore, Option.map_none, Option.map_eq_none_iff] at h
    rw [h]
  | some entry =>
    rw [hbefore, Option.map_some, Option.map_eq_some_iff] at h
    obtain ⟨⟨state, refs'⟩, hentry, hstate⟩ := h
    rw [hentry]
    obtain ⟨state', refs⟩ := entry
    cases hstate
    cases state with
    | pending waiters => rfl
    | ready payload => rfl
    | failed => rfl

/-- In the same state, the same tickets are listed. -/
theorem SameState.lists {before after : Cache κ π} {key : κ} (h : before.SameState after key)
    {ticket : Ticket} (hlists : after.Lists key ticket) : before.Lists key ticket := by
  obtain ⟨waiters, refs, hentry, hmem⟩ := hlists
  unfold SameState at h
  rw [hentry, Option.map_some, eq_comm, Option.map_eq_some_iff] at h
  obtain ⟨⟨state, refs'⟩, hbefore, hstate⟩ := h
  cases hstate
  exact ⟨waiters, refs', hbefore, hmem⟩

/-- What neither lists nor delivers tickets leaves the readers of a key alone if its entry is. -/
theorem evolves_of_lists {before after : Cache κ π} {key : κ}
    (hpeek : ∀ {payload}, before.peek? key = some payload → after.peek? key = some payload)
    (hlists : ∀ {other ticket}, ticket < before.nextTicket → after.Lists other ticket →
      before.Lists other ticket)
    (hnext : before.nextTicket ≤ after.nextTicket)
    (hdelivered : after.delivered = before.delivered) : before.Evolves after key where
  keeps := hpeek
  holds {resolution} h := by
    cases resolution with
    | settled outcome => exact fun payload heq => hpeek (h payload heq)
    | waiting other ticket =>
      obtain ⟨hissued, honly, htold⟩ := h
      refine ⟨Nat.lt_of_lt_of_le hissued hnext, fun other hlist =>
        honly other (hlists hissued hlist), fun payload hpayload => ?_⟩
      rw [hdelivered] at hpayload
      exact hpeek (htold payload hpayload)

/-- The caches have the same entries and have told their readers the same. -/
structure SameReaders (before after : Cache κ π) : Prop where
  entries : after.entries = before.entries
  nextTicket : after.nextTicket = before.nextTicket
  delivered : after.delivered = before.delivered

/-- With the same readers, every entry has as many references. -/
theorem SameReaders.refs {before after : Cache κ π} (h : before.SameReaders after) (key : κ) :
    after.refs key = before.refs key := by rw [Cache.refs, Cache.refs, h.entries]

/-- With the same readers, the same payloads are ready. -/
theorem SameReaders.peek? {before after : Cache κ π} (h : before.SameReaders after) (key : κ) :
    after.peek? key = before.peek? key := by rw [Cache.peek?, Cache.peek?, h.entries]

/-- With the same readers, every entry evolves. -/
theorem SameReaders.evolves {before after : Cache κ π} (h : before.SameReaders after) (key : κ) :
    before.Evolves after key := by
  refine evolves_of_lists (fun hpeek => (h.peek? key).trans hpeek) (fun _ hlists => ?_)
    (Nat.le_of_eq h.nextTicket.symm) h.delivered
  rwa [Lists, ← h.entries]

/-! ## Eviction -/

/-- The entry under `key` is the same, or it was unreferenced and is gone. -/
def Retains (before after : Cache κ π) (key : κ) : Prop :=
  after.entries.get? key = before.entries.get? key ∨
    after.entries.get? key = none ∧ ∃ state, before.entries.get? key = some ⟨state, 0⟩

/-- What is retained has as many references as before. -/
theorem Retains.refs {before after : Cache κ π} {key : κ} (h : before.Retains after key) :
    after.refs key = before.refs key := by
  unfold Cache.refs
  rcases h with heq | ⟨hnone, state, hentry⟩
  · rw [heq]
  · rw [hnone, hentry]
    rfl

/-- A referenced entry is not evicted. -/
theorem Retains.of_refs {before after : Cache κ π} {key : κ} (h : before.Retains after key)
    (hrefs : 0 < after.refs key) : after.entries.get? key = before.entries.get? key := by
  rcases h with heq | ⟨hnone, -⟩
  · exact heq
  · unfold Cache.refs at hrefs
    rw [hnone] at hrefs
    exact absurd hrefs (Nat.lt_irrefl 0)

/-- What is retained lists no tickets but those it listed. -/
theorem Retains.lists {before after : Cache κ π} {key : κ} (h : before.Retains after key)
    {ticket : Ticket} (hlists : after.Lists key ticket) : before.Lists key ticket := by
  obtain ⟨waiters, refs, hentry, hmem⟩ := hlists
  rcases h with heq | ⟨hnone, -⟩
  · rw [heq] at hentry
    exact ⟨waiters, refs, hentry, hmem⟩
  · rw [hnone] at hentry
    cases hentry

/-- What is retained has no payload ready but the one it had. -/
theorem Retains.peek? {before after : Cache κ π} {key : κ} (h : before.Retains after key)
    {payload : π} (hpeek : after.peek? key = some payload) : before.peek? key = some payload := by
  obtain ⟨refs, hentry⟩ := peek?_eq_some_iff.mp hpeek
  rcases h with heq | ⟨hnone, -⟩
  · rw [heq] at hentry
    exact peek?_eq_some_iff.mpr ⟨refs, hentry⟩
  · rw [hnone] at hentry
    cases hentry

/-- What changes only how often entries are referenced, and then evicts some that are not, leaves
the readers of a referenced entry alone. -/
theorem evolves_of_retains {before middle after : Cache κ π} {key : κ}
    (hstate : ∀ other, before.SameState middle other)
    (hretains : ∀ other, middle.Retains after other)
    (hnext : after.nextTicket = before.nextTicket)
    (hdelivered : after.delivered = before.delivered) (hrefs : 0 < after.refs key) :
    before.Evolves after key := by
  refine evolves_of_lists (fun hpeek => ?_)
    (fun _ hlists => (hstate _).lists ((hretains _).lists hlists)) (Nat.le_of_eq hnext.symm)
    hdelivered
  obtain ⟨refs, hentry⟩ := peek?_eq_some_iff.mp ((hstate key).peek?.trans hpeek)
  exact peek?_eq_some_iff.mpr ⟨refs, ((hretains key).of_refs hrefs).trans hentry⟩

/-- An entry that is pending, failed or referenced is not idle. -/
theorem Sound.not_mem_idle {Fits : κ → π → Prop} {cache : Cache κ π} {key : κ}
    (h : cache.Sound Fits) {entry : Entry π}
    (hentry : cache.entries.get? key = some entry)
    (hbusy : ∀ payload, entry ≠ ⟨.ready payload, 0⟩) : key ∉ cache.idle := by
  intro hmem
  obtain ⟨payload, hready⟩ := h.idle_ready hmem
  rw [hentry] at hready
  exact hbusy payload (Option.some.inj hready)

/-- Reporting the outcome of a load changes no entry. -/
theorem Sound.report [DecidableEq κ] {Fits : κ → π → Prop} {cache : Cache κ π} {key : κ}
    (h : cache.Sound Fits) {outcome : LoadOutcome π}
    (hfits : ∀ payload, outcome = .loaded payload → Fits key payload) :
    (cache.report key outcome).2.Sound Fits ∧
      cache.SameReaders (cache.report key outcome).2 := by
  unfold Cache.report
  split
  · refine ⟨⟨h.idle_nodup, h.idle_ready, h.ready_fits, ?_, h.loader_fits, h.listed_lt,
      h.delivered_lt⟩, rfl, rfl, rfl⟩
    intro other payload hmem
    rcases List.mem_append.mp hmem with hold | hnew
    · exact h.arrived_fits hold
    · obtain ⟨rfl, rfl⟩ := Prod.mk.inj (List.mem_singleton.mp hnew)
      exact hfits payload rfl
  · exact ⟨h, rfl, rfl, rfl⟩

/-- A cache stays sound when outcomes are reported that fit their keys. -/
theorem Sound.reports [DecidableEq κ] {Fits : κ → π → Prop} {cache : Cache κ π}
    (h : cache.Sound Fits) (reports : List (κ × LoadOutcome π))
    (hfits : ∀ {key payload}, (key, LoadOutcome.loaded payload) ∈ reports → Fits key payload) :
    (reports.foldl (fun cache report => (cache.report report.1 report.2).2) cache).Sound Fits ∧
      cache.SameReaders
        (reports.foldl (fun cache report => (cache.report report.1 report.2).2) cache) := by
  induction reports generalizing cache with
  | nil => exact ⟨h, rfl, rfl, rfl⟩
  | cons report rest ih =>
    have hreport : ∀ payload, report.2 = .loaded payload → Fits report.1 payload := by
      intro payload heq
      apply hfits
      rw [← heq]
      exact List.mem_cons_self
    obtain ⟨hfirst, hsame⟩ := h.report hreport
    obtain ⟨hsound, hrest⟩ := ih hfirst fun hmem => hfits (List.mem_cons_of_mem _ hmem)
    exact ⟨hsound, hrest.entries.trans hsame.entries, hrest.nextTicket.trans hsame.nextTicket,
      hrest.delivered.trans hsame.delivered⟩

/-- Without a reference there is none to give back. -/
theorem release_of_refs [TransOrd κ] [DecidableEq κ] {cache : Cache κ π} {key : κ}
    (hrefs : cache.refs key = 0) : cache.release key = cache := by
  unfold Cache.release
  unfold refs at hrefs
  cases hentry : cache.entries.get? key with
  | none => rfl
  | some entry =>
    rw [hentry, Option.elim_some] at hrefs
    simp only [hrefs]

/-- Where no load is waited for, there is nothing to settle. -/
theorem pending_or_settle_eq [TransOrd κ] [DecidableEq κ] (cache : Cache κ π) (key : κ) :
    (∃ waiters refs, cache.entries.get? key = some ⟨.pending waiters, refs⟩) ∨
      (∀ waiters refs, cache.entries.get? key ≠ some ⟨.pending waiters, refs⟩) ∧
        ∀ outcome, cache.settle key outcome = cache := by
  cases hentry : cache.entries.get? key with
  | none => exact .inr ⟨fun _ _ => nofun, fun _ => by simp only [Cache.settle, hentry]⟩
  | some entry =>
    obtain ⟨state, refs⟩ := entry
    cases state with
    | pending waiters => exact .inl ⟨waiters, refs, rfl⟩
    | ready payload => exact .inr ⟨fun _ _ => nofun, fun _ => by simp only [Cache.settle, hentry]⟩
    | failed => exact .inr ⟨fun _ _ => nofun, fun _ => by simp only [Cache.settle, hentry]⟩

/-- A ready entry without references becomes the most recently touched idle one. -/
theorem Sound.touch [DecidableEq κ] {Fits : κ → π → Prop} {cache : Cache κ π} {key : κ}
    (h : cache.Sound Fits) {payload : π}
    (hready : cache.entries.get? key = some ⟨.ready payload, 0⟩) :
    ({ cache with idle := cache.idle.erase key ++ [key] } : Cache κ π).Sound Fits := by
  refine ⟨?_, ?_, h.ready_fits, h.arrived_fits, h.loader_fits, h.listed_lt, h.delivered_lt⟩
  · refine (h.idle_nodup.erase key).append (List.nodup_singleton key) ?_
    intro other hother hkey
    rw [List.mem_singleton.mp hkey] at hother
    exact h.idle_nodup.not_mem_erase hother
  · intro other hother
    rcases List.mem_append.mp hother with hold | hnew
    · exact h.idle_ready (List.mem_of_mem_erase hold)
    · rw [List.mem_singleton.mp hnew]
      exact ⟨payload, hready⟩

/-- Touching an idle entry changes the order of the idle ones only. -/
theorem Sound.promote [DecidableEq κ] {Fits : κ → π → Prop} {cache : Cache κ π}
    (h : cache.Sound Fits) (key : κ) : (cache.promote key).Sound Fits := by
  unfold Cache.promote
  by_cases hmem : key ∈ cache.idle
  · rw [if_pos hmem]
    obtain ⟨payload, hready⟩ := h.idle_ready hmem
    exact (h.touch hready)
  · rw [if_neg hmem]
    exact h

/-- An outcome that arrived fits its key, and need not be kept. -/
theorem Sound.popArrived {Fits : κ → π → Prop} {cache : Cache κ π} (h : cache.Sound Fits)
    {arrival : κ × LoadOutcome π} {rest : List (κ × LoadOutcome π)}
    (harrived : cache.arrived = arrival :: rest) :
    ({ cache with arrived := rest } : Cache κ π).Sound Fits ∧
      ∀ payload, arrival.2 = .loaded payload → Fits arrival.1 payload := by
  have hfits := @h.arrived_fits
  rw [harrived] at hfits
  refine ⟨⟨h.idle_nodup, h.idle_ready, h.ready_fits,
    fun hmem => hfits (List.mem_cons_of_mem _ hmem), h.loader_fits,
    h.listed_lt, h.delivered_lt⟩, fun payload heq => hfits ?_⟩
  rw [← heq]
  exact List.mem_cons_self

section

variable [TransOrd κ] [LawfulEqOrd κ] [DecidableEq κ] {Fits : κ → π → Prop}
  {cache : Cache κ π} {key : κ}

/-- Of the keys that are erased one after the other, nothing is left. -/
theorem get?_foldl_erase (keys : List κ) (entries : Table κ (Entry π)) (key : κ) :
    (keys.foldl Table.erase entries).get? key =
      if key ∈ keys then none else entries.get? key := by
  induction keys generalizing entries with
  | nil => simp only [List.foldl_nil, List.not_mem_nil, if_false]
  | cons head rest ih =>
    rw [List.foldl_cons, ih, Table.get?_erase]
    by_cases hrest : key ∈ rest
    · rw [if_pos hrest, if_pos (List.mem_cons_of_mem _ hrest)]
    · by_cases hhead : key = head
      · rw [if_neg hrest, if_pos hhead, if_pos (List.mem_cons.mpr (.inl hhead))]
      · rw [if_neg hrest, if_neg hhead, if_neg]
        exact fun hmem => (List.mem_cons.mp hmem).elim hhead hrest

/-- A sound cache stays sound when it is trimmed, and keeps what is referenced. -/
theorem Sound.trim (h : cache.Sound Fits) :
    cache.trim.Sound Fits ∧ ∀ key, cache.Retains cache.trim key := by
  have hget : ∀ key, cache.trim.entries.get? key =
      if key ∈ cache.idle.take (cache.idle.length - cache.idleCapacity) then none
      else cache.entries.get? key := get?_foldl_erase _ _
  have hretains : ∀ key, cache.Retains cache.trim key := by
    intro key
    rw [Retains, hget]
    by_cases hmem : key ∈ cache.idle.take (cache.idle.length - cache.idleCapacity)
    · rw [if_pos hmem]
      obtain ⟨payload, hready⟩ := h.idle_ready (List.mem_of_mem_take hmem)
      exact .inr ⟨rfl, .ready payload, hready⟩
    · rw [if_neg hmem]
      exact .inl rfl
  refine ⟨⟨?_, ?_, ?_, h.arrived_fits, h.loader_fits, ?_, h.delivered_lt⟩, hretains⟩
  · exact h.idle_nodup.sublist (List.drop_sublist _ _)
  · intro key hkey
    rw [hget, if_neg]
    · exact h.idle_ready (List.mem_of_mem_drop hkey)
    · intro htaken
      have hnodup := h.idle_nodup
      rw [← List.take_append_drop (cache.idle.length - cache.idleCapacity) cache.idle] at hnodup
      exact List.disjoint_of_nodup_append hnodup htaken hkey
  · exact fun hpeek => h.ready_fits ((hretains _).peek? hpeek)
  · exact fun hlists => h.listed_lt ((hretains _).lists hlists)

/-- Making a ready entry without references idle evicts nothing that is referenced. -/
theorem Sound.makeIdle (h : cache.Sound Fits) {payload : π}
    (hready : cache.entries.get? key = some ⟨.ready payload, 0⟩) :
    (cache.makeIdle key).Sound Fits ∧ ∀ other, cache.Retains (cache.makeIdle key) other :=
  (h.touch hready).trim

/-! ## Operations -/

/-- Changing the entry under a key that is not idle. -/
theorem Sound.insert (h : cache.Sound Fits) (hidle : key ∉ cache.idle) (entry : Entry π)
    (hfits : ∀ payload, entry.state = .ready payload → Fits key payload)
    (hlisted : ∀ waiters, entry.state = .pending waiters →
      ∀ ticket ∈ waiters, ticket < cache.nextTicket) :
    ({ cache with entries := cache.entries.insert key entry } : Cache κ π).Sound Fits := by
  refine ⟨h.idle_nodup, ?_, ?_, h.arrived_fits, h.loader_fits, ?_, h.delivered_lt⟩
  · intro other hother
    rw [Table.get?_insert, if_neg (ne_of_mem_of_not_mem hother hidle)]
    exact h.idle_ready hother
  · intro other payload hpeek
    obtain ⟨refs, hentry⟩ := peek?_eq_some_iff.mp hpeek
    rw [Table.get?_insert] at hentry
    by_cases heq : other = key
    · rw [if_pos heq] at hentry
      cases hentry
      rw [heq]
      exact hfits payload rfl
    · rw [if_neg heq] at hentry
      exact h.ready_fits (peek?_eq_some_iff.mpr ⟨refs, hentry⟩)
  · rintro other ticket ⟨waiters, refs, hentry, hmem⟩
    rw [Table.get?_insert] at hentry
    split at hentry
    · cases hentry
      exact hlisted waiters rfl ticket hmem
    · exact h.listed_lt ⟨waiters, refs, hentry, hmem⟩

/-- Removing the entry under a key that is not idle. -/
theorem Sound.erase (h : cache.Sound Fits) (hidle : key ∉ cache.idle) :
    ({ cache with entries := cache.entries.erase key } : Cache κ π).Sound Fits := by
  refine ⟨h.idle_nodup, ?_, ?_, h.arrived_fits, h.loader_fits, ?_, h.delivered_lt⟩
  · intro other hother
    rw [Table.get?_erase, if_neg (ne_of_mem_of_not_mem hother hidle)]
    exact h.idle_ready hother
  · intro other payload hpeek
    obtain ⟨refs, hentry⟩ := peek?_eq_some_iff.mp hpeek
    rw [Table.get?_erase] at hentry
    split at hentry
    · cases hentry
    · exact h.ready_fits (peek?_eq_some_iff.mpr ⟨refs, hentry⟩)
  · rintro other ticket ⟨waiters, refs, hentry, hmem⟩
    rw [Table.get?_erase] at hentry
    split at hentry
    · cases hentry
    · exact h.listed_lt ⟨waiters, refs, hentry, hmem⟩

/-- Writing one entry leaves the references on the others alone. -/
theorem refs_of_insert {after : Cache κ π} {entry : Entry π}
    (h : after.entries = cache.entries.insert key entry) (other : κ) :
    after.refs other = if other = key then entry.refs else cache.refs other := by
  rw [refs, h, Table.get?_insert]
  split
  · rfl
  · rfl

/-- Counting the references of an entry anew changes no state. -/
theorem sameState_of_insert {after : Cache κ π} {state : EntryState π} {count count' : Nat}
    (hentry : cache.entries.get? key = some ⟨state, count⟩)
    (h : after.entries = cache.entries.insert key ⟨state, count'⟩) (other : κ) :
    cache.SameState after other := by
  rw [SameState, h, Table.get?_insert]
  by_cases heq : other = key
  · rw [if_pos heq, heq, hentry]
    rfl
  · rw [if_neg heq]

/-- An entry without references can be removed. -/
theorem retains_of_erase {after : Cache κ π} {state : EntryState π}
    (hentry : cache.entries.get? key = some ⟨state, 0⟩)
    (h : after.entries = cache.entries.erase key) (other : κ) : cache.Retains after other := by
  rw [Retains, h, Table.get?_erase]
  by_cases heq : other = key
  · rw [← heq] at hentry
    rw [if_pos heq]
    exact .inr ⟨rfl, state, hentry⟩
  · rw [if_neg heq]
    exact .inl rfl

/-- Taking a reference counts one up, if there is an entry. -/
theorem Sound.retain (h : cache.Sound Fits) (key : κ) :
    (cache.retain key).2.Sound Fits ∧
      (∀ other, (cache.retain key).2.refs other = cache.refs other +
        if other = key ∧ (cache.entries.get? key).isSome then 1 else 0) ∧
      ∀ other, cache.Evolves (cache.retain key).2 other := by
  unfold Cache.retain
  cases hentry : cache.entries.get? key with
  | none =>
    refine ⟨h, fun other => ?_, fun other => .refl cache other⟩
    rw [if_neg (fun hsome => nomatch hsome.2)]
    rfl
  | some entry =>
    have hstate : ∀ other, cache.SameState { cache with
        entries := cache.entries.insert key { entry with refs := entry.refs + 1 }
        idle := cache.idle.erase key } other := sameState_of_insert hentry rfl
    refine ⟨⟨?_, ?_, ?_, h.arrived_fits, h.loader_fits, ?_, h.delivered_lt⟩, ?_, ?_⟩
    · exact h.idle_nodup.erase key
    · intro other hother
      have hne : other ≠ key := ne_of_mem_of_not_mem hother h.idle_nodup.not_mem_erase
      rw [Table.get?_insert, if_neg hne]
      exact h.idle_ready (List.mem_of_mem_erase hother)
    · intro other payload hpeek
      rw [(hstate other).peek?] at hpeek
      exact h.ready_fits hpeek
    · exact fun hlists => h.listed_lt ((hstate _).lists hlists)
    · intro other
      refine (refs_of_insert rfl other).trans ?_
      by_cases hother : other = key
      · rw [if_pos hother, if_pos ⟨hother, rfl⟩, hother, refs, hentry]
        rfl
      · rw [if_neg hother, if_neg fun hsome => hother hsome.1]
        rfl
    · intro other
      refine evolves_of_lists (fun hpeek => ?_) (fun _ hlists => (hstate _).lists hlists)
        (Nat.le_refl _) rfl
      rwa [(hstate other).peek?]

/-- Giving a reference back counts one down, if there is one. What is still referenced stays as it
is. -/
theorem Sound.release (h : cache.Sound Fits) (key : κ) :
    (cache.release key).Sound Fits ∧
      (∀ other, (cache.release key).refs other =
        cache.refs other - if other = key then 1 else 0) ∧
      ∀ other, 0 < (cache.release key).refs other → cache.Evolves (cache.release key) other := by
  cases hcount : cache.refs key with
  | zero =>
    rw [release_of_refs hcount]
    refine ⟨h, fun other => ?_, fun other _ => .refl cache other⟩
    by_cases heq : other = key
    · rw [if_pos heq, heq, hcount]
    · rw [if_neg heq]
      rfl
  | succ count =>
    cases hentry : cache.entries.get? key with
    | none =>
      rw [refs, hentry] at hcount
      cases hcount
    | some entry =>
      obtain ⟨state, _⟩ := entry
      rw [refs, hentry] at hcount
      obtain rfl : _ = count + 1 := hcount
      have hidle : key ∉ cache.idle := h.not_mem_idle hentry fun payload heq => by cases heq
      have hlowered := h.insert hidle ⟨state, count⟩
        (fun payload hstate => by
          cases hstate
          exact h.ready_fits (peek?_eq_some_iff.mpr ⟨_, hentry⟩))
        (fun waiters hstate ticket hmem => by
          cases hstate
          exact h.listed_lt ⟨waiters, _, hentry, hmem⟩)
      have hget : (cache.entries.insert key ⟨state, count⟩).get? key = some ⟨state, count⟩ :=
        Table.get?_insert_self _ _ _
      have hstate : ∀ other, cache.SameState
          { cache with entries := cache.entries.insert key ⟨state, count⟩ } other :=
        sameState_of_insert hentry rfl
      have hrefs : ∀ other, refs
          { cache with entries := cache.entries.insert key ⟨state, count⟩ } other =
            cache.refs other - if other = key then 1 else 0 := by
        intro other
        rw [refs_of_insert rfl other]
        by_cases heq : other = key
        · rw [if_pos heq, if_pos heq, heq, refs, hentry]
          rfl
        · rw [if_neg heq, if_neg heq]
          rfl
      -- What follows evicts only what is not referenced.
      have hfinal : ∀ after : Cache κ π, after.Sound Fits →
          (∀ other, Retains { cache with entries := cache.entries.insert key ⟨state, count⟩ } after
            other) → after.nextTicket = cache.nextTicket → after.delivered = cache.delivered →
          after.Sound Fits ∧
            (∀ other, after.refs other = cache.refs other - if other = key then 1 else 0) ∧
            ∀ other, 0 < after.refs other → cache.Evolves after other :=
        fun after hafter hretains hnext hdelivered =>
          ⟨hafter, fun other => (hretains other).refs.trans (hrefs other), fun other hpos =>
            evolves_of_retains hstate hretains hnext hdelivered hpos⟩
      simp only [Cache.release, hentry]
      cases count with
      | succ count => exact hfinal _ hlowered (fun other => .inl rfl) rfl rfl
      | zero =>
        cases state with
        | pending waiters => exact hfinal _ hlowered (fun other => .inl rfl) rfl rfl
        | ready payload =>
          have hmade := hlowered.makeIdle hget
          exact hfinal _ hmade.1 hmade.2 rfl rfl
        | failed =>
          exact hfinal _ (hlowered.erase hidle) (retains_of_erase hget rfl) rfl rfl

/-- Giving references back counts every key down as often as it is named. -/
theorem Sound.releases (h : cache.Sound Fits) (keys : List κ) :
    (keys.foldl Cache.release cache).Sound Fits ∧
      (∀ other, (keys.foldl Cache.release cache).refs other =
        cache.refs other - keys.count other) ∧
      ∀ other, 0 < (keys.foldl Cache.release cache).refs other →
        cache.Evolves (keys.foldl Cache.release cache) other := by
  induction keys generalizing cache with
  | nil => exact ⟨h, fun _ => rfl, fun _ _ => .refl _ _⟩
  | cons key rest ih =>
    obtain ⟨hfirst, hrefs, hevolves⟩ := h.release key
    obtain ⟨hrest, hrefs', hevolves'⟩ := ih hfirst
    refine ⟨hrest, fun other => (hrefs' other).trans ?_, fun other hpos =>
      (hevolves other ?_).trans (hevolves' other hpos)⟩
    · have hnamed : (if key = other then 1 else 0) = if other = key then 1 else 0 :=
        if_congr eq_comm rfl rfl
      simp only [hrefs, List.count_cons, beq_iff_eq, hnamed]
      omega
    · have hless := hrefs' other
      rw [List.foldl_cons] at hpos
      omega

/-- What a ticket is delivered when an entry settles. -/
theorem get?_foldl_insert (tickets : List Ticket) (delivered : Table Ticket (LoadOutcome π))
    (outcome : LoadOutcome π) (ticket : Ticket) :
    (tickets.foldl (fun delivered ticket => delivered.insert ticket outcome) delivered).get?
      ticket = if ticket ∈ tickets then some outcome else delivered.get? ticket := by
  induction tickets generalizing delivered with
  | nil => simp only [List.foldl_nil, List.not_mem_nil, if_false]
  | cons head rest ih =>
    rw [List.foldl_cons, ih, Table.get?_insert]
    by_cases hrest : ticket ∈ rest
    · rw [if_pos hrest, if_pos (List.mem_cons_of_mem _ hrest)]
    · by_cases hhead : ticket = head
      · rw [if_neg hrest, if_pos hhead, if_pos (List.mem_cons.mpr (.inl hhead))]
      · rw [if_neg hrest, if_neg hhead, if_neg]
        exact fun hmem => (List.mem_cons.mp hmem).elim hhead hrest

/-- A pending entry settles: its waiters are delivered the outcome, and the entry takes the state
that goes with it. -/
theorem Sound.settlePending (h : cache.Sound Fits) {waiters : List Ticket} {count : Nat}
    (hentry : cache.entries.get? key = some ⟨.pending waiters, count⟩) (outcome : LoadOutcome π)
    (state : EntryState π) (hidle : ∀ listed, state ≠ .pending listed)
    (hloaded : ∀ payload, state = .ready payload → Fits key payload)
    (hstate : ∀ payload, outcome = .loaded payload → state = .ready payload) :
    ({ cache.deliver waiters outcome with
      entries := cache.entries.insert key ⟨state, count⟩ } : Cache κ π).Sound Fits ∧
      (∀ other, refs { cache.deliver waiters outcome with
        entries := cache.entries.insert key ⟨state, count⟩ } other = cache.refs other) ∧
      ∀ other, cache.Evolves { cache.deliver waiters outcome with
        entries := cache.entries.insert key ⟨state, count⟩ } other := by
  have hbusy : key ∉ cache.idle := h.not_mem_idle hentry fun payload heq => by cases heq
  have hget : ∀ {ticket}, (cache.deliver waiters outcome).delivered.get? ticket =
      if ticket ∈ waiters then some outcome else cache.delivered.get? ticket :=
    get?_foldl_insert _ _ _ _
  have hdelivered : (cache.deliver waiters outcome).Sound Fits := by
    refine ⟨h.idle_nodup, h.idle_ready, h.ready_fits, h.arrived_fits, h.loader_fits, h.listed_lt,
      fun {ticket outcome'} htold => ?_⟩
    rw [hget] at htold
    split at htold
    · exact h.listed_lt ⟨waiters, count, hentry, ‹_›⟩
    · exact h.delivered_lt htold
  have hpeek : ∀ {other payload}, cache.peek? other = some payload →
      Cache.peek? { cache.deliver waiters outcome with
        entries := cache.entries.insert key ⟨state, count⟩ } other = some payload := by
    intro other payload hpeek
    obtain ⟨refs, hready⟩ := peek?_eq_some_iff.mp hpeek
    refine peek?_eq_some_iff.mpr ⟨refs, ?_⟩
    rw [Table.get?_insert, if_neg, hready]
    rintro rfl
    rw [hentry] at hready
    cases hready
  refine ⟨hdelivered.insert hbusy ⟨state, count⟩ hloaded fun listed heq =>
    absurd heq (hidle listed), fun other => ?_, fun other => ⟨hpeek, fun {resolution} hholds => ?_⟩⟩
  · rw [refs_of_insert rfl other]
    by_cases heq : other = key
    · rw [if_pos heq, heq, refs, hentry]
      rfl
    · rw [if_neg heq]
  · cases resolution with
    | settled known => exact fun payload heq => hpeek (hholds payload heq)
    | waiting name ticket =>
      obtain ⟨hissued, honly, htold⟩ := hholds
      refine ⟨hissued, ?_, ?_⟩
      · rintro listed ⟨waiters', refs, hlisted, hmem⟩
        rw [Table.get?_insert] at hlisted
        split at hlisted
        · cases hlisted
          exact absurd rfl (hidle waiters')
        · exact honly listed ⟨waiters', refs, hlisted, hmem⟩
      · intro payload hpayload
        change (cache.deliver waiters outcome).delivered.get? ticket = _ at hpayload
        rw [hget] at hpayload
        by_cases hmem : ticket ∈ waiters
        · -- What the ticket is told is what the entry holds from now on.
          rw [if_pos hmem] at hpayload
          obtain rfl := honly key ⟨waiters, count, hentry, hmem⟩
          refine peek?_eq_some_iff.mpr ⟨count, ?_⟩
          rw [hstate payload (Option.some.inj hpayload)]
          exact Table.get?_insert_self _ _ _
        · rw [if_neg hmem] at hpayload
          exact hpeek (htold payload hpayload)

/-- Settling a load tells its waiters what the entry then holds. No reference is taken or given
back. -/
theorem Sound.settle (h : cache.Sound Fits) {outcome : LoadOutcome π}
    (hfits : ∀ payload, outcome = .loaded payload → Fits key payload) :
    (cache.settle key outcome).Sound Fits ∧
      (∀ other, (cache.settle key outcome).refs other = cache.refs other) ∧
      ∀ other, 0 < (cache.settle key outcome).refs other →
        cache.Evolves (cache.settle key outcome) other := by
  rcases cache.pending_or_settle_eq key with ⟨waiters, count, hentry⟩ | ⟨-, hstays⟩
  · simp only [Cache.settle, hentry]
    -- The entry settles, and is evicted if nobody refers to it.
    have hfinal : ∀ {middle after : Cache κ π}, (∀ other, middle.refs other = cache.refs other) →
        (∀ other, cache.Evolves middle other) → after.Sound Fits →
        (∀ other, middle.Retains after other) → after.nextTicket = middle.nextTicket →
        after.delivered = middle.delivered → after.Sound Fits ∧
          (∀ other, after.refs other = cache.refs other) ∧
          ∀ other, 0 < after.refs other → cache.Evolves after other :=
      fun hrefs hmiddle hafter hretains hnext hdelivered =>
        ⟨hafter, fun other => (hretains other).refs.trans (hrefs other), fun other hpos =>
          (hmiddle other).trans
            (evolves_of_retains (fun _ => rfl) hretains hnext hdelivered hpos)⟩
    cases outcome with
    | loaded payload =>
      have hsettled := h.settlePending hentry (.loaded payload) (.ready payload)
        (fun _ heq => by cases heq) (fun _ heq => by cases heq; exact hfits payload rfl)
        fun _ heq => by cases heq; rfl
      dsimp only
      by_cases hzero : count = 0
      · rw [if_pos hzero]
        subst hzero
        have hmade := hsettled.1.makeIdle (Table.get?_insert_self _ _ _)
        exact hfinal hsettled.2.1 hsettled.2.2 hmade.1 hmade.2 rfl rfl
      · rw [if_neg hzero]
        exact hfinal hsettled.2.1 hsettled.2.2 hsettled.1 (fun _ => .inl rfl) rfl rfl
    | failed error =>
      have hsettled := h.settlePending hentry (.failed error) .failed (fun _ heq => by cases heq)
        (fun _ heq => by cases heq) fun _ heq => by cases heq
      dsimp only
      by_cases hzero : count = 0
      · rw [if_pos hzero]
        subst hzero
        have hidle : key ∉ cache.idle := h.not_mem_idle hentry fun payload heq => by cases heq
        have herased := hsettled.1.erase hidle
        simp only [Table.erase_insert_self] at herased
        refine hfinal hsettled.2.1 hsettled.2.2 herased ?_ rfl rfl
        exact retains_of_erase (Table.get?_insert_self _ _ _) (Table.erase_insert_self _ _ _).symm
      · rw [if_neg hzero]
        exact hfinal hsettled.2.1 hsettled.2.2 hsettled.1 (fun _ => .inl rfl) rfl rfl
  · rw [hstays]
    exact ⟨h, fun _ => rfl, fun other _ => .refl cache other⟩

/-- Settling the outcome that arrived first tells no reader anything that is not so. -/
theorem Sound.settleNext (h : cache.Sound Fits) :
    cache.settleNext.Sound Fits ∧ (∀ other, cache.settleNext.refs other = cache.refs other) ∧
      ∀ other, 0 < cache.settleNext.refs other → cache.Evolves cache.settleNext other := by
  unfold Cache.settleNext
  cases harrived : cache.arrived with
  | nil => exact ⟨h, fun _ => rfl, fun _ _ => .refl _ _⟩
  | cons arrival rest =>
    obtain ⟨hpopped, hfits⟩ := h.popArrived harrived
    have hsame : cache.SameReaders { cache with arrived := rest } := ⟨rfl, rfl, rfl⟩
    obtain ⟨hsettled, hrefs, hevolves⟩ := hpopped.settle hfits
    exact ⟨hsettled, hrefs, fun other hpos => (hsame.evolves other).trans (hevolves other hpos)⟩

/-- What resolving a key does: it takes no reference, leaves all readers alone, and brings a
resolution that tells what the entry holds. -/
structure Resolved (Fits : κ → π → Prop) (before : Cache κ π) (key : κ)
    (resolution : Resolution κ π) (after : Cache κ π) : Prop where
  sound : after.Sound Fits
  refs : ∀ other, after.refs other = before.refs other
  evolves : ∀ other, before.Evolves after other
  holds : after.Holds key resolution
  isSome : (after.entries.get? key).isSome = true

/-- A new ticket joins the waiters under a key whose entry is not ready. -/
theorem Sound.enlist (h : cache.Sound Fits) (hpeek : cache.peek? key = none)
    {waiters : List Ticket} (hwaiters : ∀ ticket ∈ waiters, cache.Lists key ticket)
    (started loading : List κ) :
    Resolved Fits cache key (.waiting key cache.nextTicket) { cache with
      entries := cache.entries.insert key
        ⟨.pending (waiters ++ [cache.nextTicket]), cache.refs key⟩
      started := started
      loading := loading
      nextTicket := cache.nextTicket + 1 } := by
  have hidle : key ∉ cache.idle := by
    intro hmem
    obtain ⟨payload, hready⟩ := h.idle_ready hmem
    rw [peek?_eq_some_iff.mpr ⟨0, hready⟩] at hpeek
    cases hpeek
  have hissued : ({ cache with nextTicket := cache.nextTicket + 1 } : Cache κ π).Sound Fits :=
    ⟨h.idle_nodup, h.idle_ready, h.ready_fits, h.arrived_fits, h.loader_fits,
      fun hlists => Nat.lt_succ_of_lt (h.listed_lt hlists),
      fun htold => Nat.lt_succ_of_lt (h.delivered_lt htold)⟩
  have hinserted := hissued.insert hidle
    ⟨.pending (waiters ++ [cache.nextTicket]), cache.refs key⟩ nofun
    fun listed heq ticket hmem => by
      cases heq
      rcases List.mem_append.mp hmem with hold | hnew
      · exact Nat.lt_succ_of_lt (h.listed_lt (hwaiters ticket hold))
      · rw [List.mem_singleton.mp hnew]
        exact Nat.lt_succ_self _
  -- Whoever is listed now was listed before, or has the ticket that is issued here.
  have hlists : ∀ {other ticket}, Lists { cache with
      entries := cache.entries.insert key
        ⟨.pending (waiters ++ [cache.nextTicket]), cache.refs key⟩
      started := started
      loading := loading
      nextTicket := cache.nextTicket + 1 } other ticket →
      ticket = cache.nextTicket ∧ other = key ∨ cache.Lists other ticket := by
    rintro other ticket ⟨listed, refs, hentry, hmem⟩
    rw [Table.get?_insert] at hentry
    by_cases heq : other = key
    · rw [if_pos heq] at hentry
      cases hentry
      rcases List.mem_append.mp hmem with hold | hnew
      · rw [heq]
        exact .inr (hwaiters ticket hold)
      · exact .inl ⟨List.mem_singleton.mp hnew, heq⟩
    · rw [if_neg heq] at hentry
      exact .inr ⟨listed, refs, hentry, hmem⟩
  refine ⟨⟨hinserted.idle_nodup, hinserted.idle_ready, hinserted.ready_fits,
    hinserted.arrived_fits, hinserted.loader_fits, hinserted.listed_lt, hinserted.delivered_lt⟩,
    fun other => ?_, fun other => ?_, ⟨Nat.lt_succ_self _, fun other hlisted => ?_,
      fun payload htold => ?_⟩, ?_⟩
  · rw [refs_of_insert rfl other]
    by_cases heq : other = key
    · rw [if_pos heq, heq]
    · rw [if_neg heq]
  · refine evolves_of_lists (fun {payload} hready => ?_) (fun hlt hlisted => ?_) (Nat.le_succ _) rfl
    · obtain ⟨refs, hentry⟩ := peek?_eq_some_iff.mp hready
      refine peek?_eq_some_iff.mpr ⟨refs, ?_⟩
      rw [Table.get?_insert, if_neg, hentry]
      rintro rfl
      rw [hpeek] at hready
      cases hready
    · rcases hlists hlisted with ⟨rfl, -⟩ | hold
      · exact absurd hlt (Nat.lt_irrefl _)
      · exact hold
  · rcases hlists hlisted with ⟨-, rfl⟩ | hold
    · rfl
    · exact absurd (h.listed_lt hold) (Nat.lt_irrefl _)
  · exact absurd (h.delivered_lt htold) (Nat.lt_irrefl _)
  · rw [Table.get?_insert_self]
    rfl

/-- Starting a load enlists its first waiter. The outcomes that are reported at once wait to be
settled. -/
theorem Sound.startLoad (h : cache.Sound Fits) (key : κ) (hpeek : cache.peek? key = none) :
    Resolved Fits cache key (.waiting key cache.nextTicket)
      (cache.startLoad key (cache.refs key)) := by
  have hlisted : ∀ ticket ∈ ([] : List Ticket), cache.Lists key ticket := nofun
  have henlisted := h.enlist hpeek hlisted (cache.started ++ [key]) (cache.loading ++ [key])
  obtain ⟨hsound, hsame⟩ := henlisted.sound.reports
    (cache.loader.reports (cache.started ++ [key])) h.loader_fits
  refine ⟨hsound, fun other => (hsame.refs other).trans (henlisted.refs other),
    fun other => (henlisted.evolves other).trans (hsame.evolves other),
    (hsame.evolves key).holds henlisted.holds, ?_⟩
  exact (congrArg (fun entries => (Table.get? entries key).isSome) hsame.entries).trans
    henlisted.isSome

/-- Resolving a key reads a ready entry, joins a pending one, and loads any other. -/
theorem Sound.resolve (h : cache.Sound Fits) (key : κ) :
    Resolved Fits cache key (cache.resolve key).1 (cache.resolve key).2 := by
  unfold Cache.resolve
  cases hentry : cache.entries.get? key with
  | none =>
    have hrefs : cache.refs key = 0 := by rw [refs, hentry]; rfl
    have hload := h.startLoad key (by rw [Cache.peek?, hentry])
    rw [hrefs] at hload
    exact hload
  | some entry =>
    obtain ⟨state, count⟩ := entry
    have hrefs : cache.refs key = count := by rw [refs, hentry]; rfl
    cases state with
    | failed =>
      have hload := h.startLoad key (by rw [Cache.peek?, hentry])
      rw [hrefs] at hload
      exact hload
    | pending waiters =>
      have henlisted := h.enlist (by rw [Cache.peek?, hentry])
        (fun ticket hmem => ⟨waiters, count, hentry, hmem⟩) cache.started cache.loading
      rw [hrefs] at henlisted
      exact henlisted
    | ready payload =>
      have hsame : cache.SameReaders (cache.promote key) := by
        unfold Cache.promote
        split
        · exact ⟨rfl, rfl, rfl⟩
        · exact ⟨rfl, rfl, rfl⟩
      have hpeek : cache.peek? key = some payload := peek?_eq_some_iff.mpr ⟨count, hentry⟩
      refine ⟨h.promote key, hsame.refs, hsame.evolves, ?_, ?_⟩
      · rintro loaded ⟨⟩
        exact (hsame.peek? key).trans hpeek
      · dsimp only
        rw [hsame.entries, hentry]
        rfl

end

end Cache

/-- Taking a reference on a key that was resolved. -/
theorem Realm.acquire_sound {Fits : CacheKey → Bundle → Prop} {realm : Realm}
    (h : realm.world.cache.Sound Fits) (key : CacheKey) :
    (realm.acquire key).2.world.cache.Sound Fits ∧
      (∀ other, (realm.acquire key).2.world.cache.refs other =
        realm.world.cache.refs other + if other = key then 1 else 0) ∧
      (∀ other, realm.world.cache.Evolves (realm.acquire key).2.world.cache other) ∧
      (realm.acquire key).2.world.cache.Holds key (realm.acquire key).1 := by
  have hresolved := h.resolve key
  obtain ⟨hsound, hrefs, hevolves⟩ := hresolved.sound.retain key
  refine ⟨hsound, fun other => ?_, fun other => (hresolved.evolves other).trans (hevolves other),
    (hevolves key).holds hresolved.holds⟩
  have hretained := hrefs other
  simp only [hresolved.refs, hresolved.isSome, and_true] at hretained
  exact hretained

end SharedWorld
