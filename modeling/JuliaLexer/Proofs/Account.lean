import JuliaLexer.Trace
import JuliaLexer.Proofs.Lookahead
import JuliaLexer.Proofs.Reading

/-!
# Accounts: what the events of a line tell

The events of a line are an account of how it was read: one event for each token, in order, which gives the category and the
length of the token and names the rule that was applied, the first one of the mode that matches what is left of the line
(`Grammar.Accounts`). Where a line fails, its tokens are lost and only the events show how far it was read. They are those of
the part of the line before the failure, which is read by itself without one, and a last event for the failure, which stands
out by its level (`traceLine_accounts_for_line`).
-/

namespace JuliaLexer

/-- `g.Accounts m t es ts m'`: read with the grammar `g` from mode `m`, the text `t` gives the tokens `ts` and leaves mode `m'`,
and the events `es` tell how. Every event tells of one token, the length of which is that of the lexeme of the first rule that
applies where the token starts, and of the mode in which the next one is read. -/
inductive Grammar.Accounts (g : Grammar) : Mode → Text → List Event → List Token → Mode → Prop where
  | nil (m : Mode) : g.Accounts m [] [] [] m
  | cons {m m' : Mode} {t l : Text} {r : Rule} {es : List Event} {ts : List Token} :
      g.FirstRule m t r l → g.Accounts r.next (t.drop l.length) es ts m' →
      g.Accounts m t (.matched r.name (r.emission.category l) l.length r.next :: es)
        (⟨r.emission.category l, l.length⟩ :: ts) m'

/-- The number of characters that an event tells were taken. -/
def Event.taken : Event → Nat
  | .matched _ _ length _ => length
  | .stuck .. => 0

/-- The number of characters that some events tell were taken. -/
def Event.takenBy (es : List Event) : Nat := es.foldr (fun e n => e.taken + n) 0

/-! ## Helpers: accounts -/

/-- There is one event for each token. -/
theorem Grammar.Accounts.length_eq {g : Grammar} {m m' : Mode} {t : Text} {es : List Event} {ts : List Token}
    (h : g.Accounts m t es ts m') : es.length = ts.length := by
  induction h with
  | nil => rfl
  | cons _ _ ih => rw [List.length_cons, List.length_cons, ih]

/-- None of the events tells of a failure. -/
theorem Grammar.Accounts.level_eq {g : Grammar} {m m' : Mode} {t : Text} {es : List Event} {ts : List Token}
    (h : g.Accounts m t es ts m') : ∀ e ∈ es, e.level = .trace := by
  induction h with
  | nil => exact nofun
  | cons _ _ ih =>
    intro e he
    rcases List.mem_cons.mp he with rfl | he
    · rfl
    · exact ih e he

/-- The events tell of all characters. -/
theorem Grammar.Accounts.takenBy_eq {g : Grammar} {m m' : Mode} {t : Text} {es : List Event} {ts : List Token}
    (h : g.Accounts m t es ts m') : Event.takenBy es = t.length := by
  induction h with
  | nil => rfl
  | @cons m m' t l r es ts hr _ ih =>
    obtain ⟨-, -, -, hl, -⟩ := hr
    have hle : l.length ≤ t.length := (Pattern.lexeme?_prefix hl).length_le
    have hcons : Event.takenBy (.matched r.name (r.emission.category l) l.length r.next :: es) =
        l.length + Event.takenBy es := rfl
    rw [hcons, ih, List.length_drop]
    omega

/-- A last event for a failure tells of no characters. -/
theorem Event.takenBy_append_stuck (es : List Event) (m : Mode) (column : Nat) (rest : Text) :
    Event.takenBy (es ++ [.stuck m column rest]) = Event.takenBy es := by
  unfold Event.takenBy
  rw [List.foldr_append]
  rfl

/-! ## Helpers: the events of a scan -/

/-- The steps of a scan that leaves nothing account for its tokens. -/
theorem Grammar.accounts_scan {g : Grammar} {m : Mode} {t : Text} (h : (g.scan m t).rest = []) :
    g.Accounts m t ((g.scan m t).steps.map Step.event) (g.scan m t).tokens (g.scan m t).mode := by
  induction m, t using g.scan_induction with
  | stop m t hs =>
    rw [Grammar.scan_of_step?_eq_none hs] at h ⊢
    cases h
    exact .nil m
  | step m t s hs ih =>
    rw [Grammar.scan_of_step?_eq_some hs] at h ⊢
    exact .cons (Grammar.step?_eq_some_iff.mp hs) (ih h)

/-- From any other mode than the uninitialized one, the events of a line are those of its scan. -/
theorem traceLine_eq_events {m : Mode} (hm : m ≠ .uninitialized) (t : Text) :
    traceLine m t = (Grammar.julia.scan m t).events :=
  if_neg hm

/-- The events of a line that is read account for its tokens. -/
theorem accounts_of_tokenizeLine {m : Mode} {t : Text} {l : LineTokens} (h : tokenizeLine m t = .ok l) :
    Grammar.julia.Accounts m t (traceLine m t) l.tokens l.mode := by
  obtain ⟨hm, hrest, rfl⟩ := tokenizeLine_eq_ok_iff_scan.mp h
  rw [traceLine_eq_events hm]
  unfold Scan.events
  rw [if_pos hrest, List.append_nil]
  exact Grammar.accounts_scan hrest

/-- The part of a line that its scan takes is read by itself, by the same steps. -/
theorem tokenizeLine_take_column {m : Mode} (hm : m ≠ .uninitialized) (t : Text) :
    let scan := Grammar.julia.scan m t
    t.take scan.column ++ scan.rest = t ∧ tokenizeLine m (t.take scan.column) = .ok ⟨scan.tokens, scan.mode⟩ ∧
      traceLine m (t.take scan.column) = scan.steps.map Step.event := by
  intro scan
  have happend : scan.steps.flatMap (·.lexeme) ++ scan.rest = t := Grammar.julia.scan_append_rest m t
  have htake : t.take scan.column = scan.steps.flatMap (·.lexeme) := by
    rw [← happend]
    exact List.take_left
  have hscan : Grammar.julia.scan m (t.take scan.column) = { scan with rest := [] } := by
    rw [htake]
    exact Grammar.scan_flatMap_lexeme m t
  refine ⟨?_, ?_, ?_⟩
  · rw [htake]
    exact happend
  · refine tokenizeLine_eq_ok_iff_scan.mpr ⟨hm, ?_⟩
    rw [hscan]
    exact ⟨rfl, rfl⟩
  · rw [traceLine_eq_events hm, hscan]
    exact List.append_nil _

/-! ## Lines and their events -/

/-- The events of a line account for it. If the line is read, there is one event for each token, all of level trace, and together
they tell how the tokens were found. If it fails, the events are those of the part of it before the failure, which is read by
itself and leaves the mode in which the failure occurs, and a last one, of level debug, that tells what the error tells. So the
lengths that the events of level trace give sum up to the column of the failure. -/
theorem traceLine_accounts_for_line (m : Mode) (hm : m ≠ .uninitialized) (t : Text) :
    (∀ l, tokenizeLine m t = .ok l →
      Grammar.julia.Accounts m t (traceLine m t) l.tokens l.mode ∧ (traceLine m t).length = l.tokens.length ∧
        ∀ e ∈ traceLine m t, e.level = .trace) ∧
    (∀ e, tokenizeLine m t = .error e →
      ∃ m' column rest ts, e = .unmatched m' column rest ∧ t.take column ++ rest = t ∧
        tokenizeLine m (t.take column) = .ok ⟨ts, m'⟩ ∧
        traceLine m t = traceLine m (t.take column) ++ [.stuck m' column rest] ∧
        (∀ e ∈ traceLine m (t.take column), e.level = .trace) ∧ (Event.stuck m' column rest).level = .debug ∧
        Event.takenBy (traceLine m t) = column) := by
  refine ⟨?_, ?_⟩
  · intro l h
    have hline := accounts_of_tokenizeLine h
    exact ⟨hline, hline.length_eq, hline.level_eq⟩
  · intro e h
    obtain ⟨hrest, rfl⟩ := (tokenizeLine_eq_error_iff_scan hm).mp h
    obtain ⟨happend, hok, hevents⟩ := tokenizeLine_take_column hm t
    have htrace : traceLine m t = traceLine m (t.take (Grammar.julia.scan m t).column) ++
        [.stuck (Grammar.julia.scan m t).mode (Grammar.julia.scan m t).column (Grammar.julia.scan m t).rest] := by
      rw [hevents, traceLine_eq_events hm]
      unfold Scan.events
      rw [if_neg hrest]
    have hfront := accounts_of_tokenizeLine hok
    refine ⟨_, _, _, _, rfl, happend, hok, htrace, hfront.level_eq, rfl, ?_⟩
    have hcolumn := Grammar.julia.column_add_length_rest m t
    rw [htrace, Event.takenBy_append_stuck, hfront.takenBy_eq, List.length_take_of_le (by omega)]

/-- A string that is left open, and a line that fails after a reserved word and the name right behind it. -/
theorem traceLine_accounts_for_failed_line :
    (traceLine .topLevel ['"', '*'] =
        [.matched "open double quote" .punctuation 1 (.quoted .double),
          .matched "double-quoted content" .string 1 (.quoted .double)] ∧
      Grammar.julia.Accounts .topLevel ['"', '*'] (traceLine .topLevel ['"', '*']) [⟨.punctuation, 1⟩, ⟨.string, 1⟩]
        (.quoted .double)) ∧
    traceLine .topLevel ['i', 'n', 'α', '*', ' '] =
      traceLine .topLevel ['i', 'n', 'α'] ++ [.stuck .topLevel 3 ['*', ' ']] ∧
    (∀ e ∈ traceLine .topLevel ['i', 'n', 'α'], e.level = .trace) ∧
    (Event.stuck .topLevel 3 ['*', ' ']).level = .debug := by
  have hok : tokenizeLine .topLevel ['"', '*'] = .ok ⟨[⟨.punctuation, 1⟩, ⟨.string, 1⟩], .quoted .double⟩ := by
    decide +kernel
  have herror : tokenizeLine .topLevel ['i', 'n', 'α', '*', ' '] = .error (.unmatched .topLevel 3 ['*', ' ']) := by
    decide +kernel
  refine ⟨⟨by decide +kernel, ?_⟩, ?_⟩
  · exact ((traceLine_accounts_for_line .topLevel nofun _).1 _ hok).1
  · obtain ⟨_, _, _, _, he, -, -, htrace, hfront, hlast, -⟩ := (traceLine_accounts_for_line .topLevel nofun _).2 _ herror
    cases he
    exact ⟨htrace, hfront, hlast⟩

end JuliaLexer
