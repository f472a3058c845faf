import ModuleHost.Proofs.Settings.Assignment

namespace ModuleHost
namespace Settings

/-!
# Applying a line

A line is applied token by token, from the left, up to the first token that is refused.  Which
tokens are refused does not depend on the settings, so what a line does can be read off its
tokens: the last assignment to each key wins, idle tokens do not count, and the order matters
only among assignments to one key.

Tokens do not reach across a blank, so lines joined by one are applied one after the other.
-/

/-- A token that no settings admit: its text has no value for its key. -/
def Invalid [LevelNames] (token : List Char) : Prop :=
  ∃ key text, token = Key.token key text ∧ key.read? text = none

/-- The text that the last of the tokens for a key assigns to it. -/
def LastFor (tokens : List (List Char)) (key : Key) (text : List Char) : Prop :=
  ∃ front back, tokens = front ++ key.token text :: back ∧ ∀ later, key.token later ∉ back

/-- Each key has the value that the last token for it assigns, or is as before. -/
structure LastWins [LevelNames] (tokens : List (List Char)) (before after : Settings) :
    Prop where
  assigned : ∀ key text, LastFor tokens key text → key.read? text = some (after.value key)
  kept : ∀ key, (∀ text, key.token text ∉ tokens) → after.value key = before.value key
  machine : after.machine = before.machine

variable {settings before middle after : Settings} {key : Key} {text : List Char}
variable {token : List Char} {front back rest : List (List Char)}

/-! ## Tokens of joined lines -/

section

variable {char next blank : Char} {chars : List Char} {more : List (List Char)}

theorem tokens_blank (blanks : isBlank char = true) : tokens (char :: chars) = tokens chars := by
  simp [tokens, blanks]

theorem tokens_single (shown : isBlank char = false) : tokens [char] = [[char]] := by
  simp [tokens, shown]

theorem tokens_of_blank (shown : isBlank char = false) (blanks : isBlank next = true) :
    tokens (char :: next :: chars) = [char] :: tokens chars := by
  simp [tokens, shown, blanks]

theorem tokens_of_shown (shown : isBlank char = false) (shown' : isBlank next = false)
    (found : tokens (next :: chars) = token :: more) :
    tokens (char :: next :: chars) = (char :: token) :: more := by
  rw [tokens.eq_def]
  simp [shown, shown', found]

theorem exists_tokens (shown : isBlank char = false) (chars : List Char) :
    ∃ token more, tokens (char :: chars) = token :: more := by
  induction chars generalizing char with
  | nil => exact ⟨_, _, tokens_single shown⟩
  | cons next chars later =>
      cases shown' : isBlank next with
      | true => exact ⟨_, _, tokens_of_blank shown shown'⟩
      | false =>
          rcases later shown' with ⟨token, more, found⟩
          exact ⟨_, _, tokens_of_shown shown shown' found⟩

/-- A token ends at a blank. -/
theorem tokens_append (blanks : isBlank blank = true) (front back : List Char) :
    tokens (front ++ blank :: back) = tokens front ++ tokens back := by
  induction front with
  | nil => exact tokens_blank blanks
  | cons char front later =>
      cases shown : isBlank char with
      | true => rw [List.cons_append, tokens_blank shown, tokens_blank shown, later]
      | false =>
          cases front with
          | nil =>
              rw [tokens_single shown, List.singleton_append, tokens_of_blank shown blanks]
              rfl
          | cons next front =>
              cases shown' : isBlank next with
              | true =>
                  rw [List.cons_append, tokens_blank shown', tokens_blank shown'] at later
                  rw [List.cons_append, List.cons_append, tokens_of_blank shown shown',
                    tokens_of_blank shown shown', later, List.cons_append]
              | false =>
                  rcases exists_tokens shown' front with ⟨token, more, found⟩
                  rw [found] at later
                  rw [tokens_of_shown shown shown' found]
                  exact tokens_of_shown shown shown' later

theorem tokens_join (line more : String) :
    tokens (line ++ " " ++ more).toList = tokens line.toList ++ tokens more.toList := by
  rw [String.toList_append, String.toList_append, List.append_assoc]
  exact tokens_append (by decide) line.toList more.toList

end

/-! ## Tokens one after the other -/

section
variable [LevelNames]

theorem applyTokens_of_ok (applied : settings.applyToken token = .ok middle)
    (rest : List (List Char)) : settings.applyTokens (token :: rest) = middle.applyTokens rest := by
  rw [applyTokens, applied]

theorem applyTokens_of_error {error : InvalidValue}
    (refused : settings.applyToken token = .error error) (rest : List (List Char)) :
    settings.applyTokens (token :: rest) = (settings, .error error) := by
  rw [applyTokens, refused]

/-- Tokens that are all passed are followed by the others. -/
theorem applyTokens_append_ok (applied : settings.applyTokens front = (middle, .ok ()))
    (back : List (List Char)) :
    settings.applyTokens (front ++ back) = middle.applyTokens back := by
  induction front generalizing settings with
  | nil =>
      rw [applyTokens, Prod.mk.injEq] at applied
      rw [List.nil_append, applied.1]
  | cons token front later =>
      cases first : settings.applyToken token with
      | error error =>
          rw [applyTokens_of_error first] at applied
          cases applied
      | ok next =>
          rw [applyTokens_of_ok first] at applied
          rw [List.cons_append, applyTokens_of_ok first, later applied]

/-- Nothing follows a token that is refused. -/
theorem applyTokens_append_error {error : InvalidValue}
    (refused : settings.applyTokens front = (middle, .error error)) (back : List (List Char)) :
    settings.applyTokens (front ++ back) = (middle, .error error) := by
  induction front generalizing settings with
  | nil => cases refused
  | cons token front later =>
      cases first : settings.applyToken token with
      | error error =>
          rw [applyTokens_of_error first] at refused
          rw [List.cons_append, applyTokens_of_error first, refused]
      | ok next =>
          rw [applyTokens_of_ok first] at refused
          rw [List.cons_append, applyTokens_of_ok first, later refused]

/-- Whether tokens are passed depends on them only. -/
theorem applyTokens_eq_ok_iff :
    (∃ after, settings.applyTokens front = (after, .ok ())) ↔ ∀ token ∈ front, ¬Invalid token := by
  induction front generalizing settings with
  | nil => exact ⟨fun _ _ listed => absurd listed List.not_mem_nil, fun _ => ⟨settings, rfl⟩⟩
  | cons token front later =>
      rw [List.forall_mem_cons]
      cases first : settings.applyToken token with
      | ok next =>
          have valid : ¬Invalid token := by
            rintro ⟨key, text, rfl, unread⟩
            rw [settings.applyToken_of_unread unread] at first
            cases first
          rw [applyTokens_of_ok first, later, and_iff_right valid]
      | error error =>
          rw [applyTokens_of_error first]
          rcases applyToken_eq_error_iff.mp first with ⟨key, text, rfl, unread, _⟩
          refine ⟨fun passed => ?_, fun valid => absurd ⟨key, text, rfl, unread⟩ valid.1⟩
          rcases passed with ⟨after, passed⟩
          cases passed

/-- A failure comes from the first invalid token, and everything in front of it is done. -/
theorem applyTokens_eq_error {all : List (List Char)} {error : InvalidValue}
    (refused : settings.applyTokens all = (after, .error error)) :
    ∃ front key text back, all = front ++ Key.token key text :: back ∧
      (∀ token ∈ front, ¬Invalid token) ∧ key.read? text = none ∧
      settings.applyTokens front = (after, .ok ()) ∧ error = ⟨key.name, String.ofList text⟩ := by
  induction all generalizing settings with
  | nil => cases refused
  | cons token all later =>
      cases first : settings.applyToken token with
      | error reason =>
          rw [applyTokens_of_error first, Prod.mk.injEq, Except.error.injEq] at refused
          rcases refused with ⟨rfl, rfl⟩
          rcases applyToken_eq_error_iff.mp first with ⟨key, text, rfl, unread, rfl⟩
          exact ⟨[], key, text, all, rfl, fun _ listed => absurd listed List.not_mem_nil, unread,
            rfl, rfl⟩
      | ok next =>
          rw [applyTokens_of_ok first] at refused
          rcases later refused with ⟨front, key, text, back, rfl, _, unread, passed, rfl⟩
          have passed' : settings.applyTokens (token :: front) = (after, .ok ()) := by
            rw [applyTokens_of_ok first, passed]
          exact ⟨token :: front, key, text, back, rfl, applyTokens_eq_ok_iff.mp ⟨after, passed'⟩,
            unread, passed', rfl⟩

end

/-! ## The last assignment -/

/-- Either no token is for a key, or one of them is the last. -/
theorem exists_lastFor (tokens : List (List Char)) (key : Key) :
    (∀ text, key.token text ∉ tokens) ∨ ∃ text, LastFor tokens key text := by
  induction tokens with
  | nil => exact Or.inl fun _ => List.not_mem_nil
  | cons token rest later =>
      rcases later with absent | ⟨text, front, back, rfl, last⟩
      · by_cases here : ∃ text, token = key.token text
        · rcases here with ⟨text, rfl⟩
          exact Or.inr ⟨text, [], rest, rfl, absent⟩
        · refine Or.inl fun text listed => ?_
          rcases List.mem_cons.mp listed with same | listed
          · exact here ⟨text, same.symm⟩
          · exact absent text listed
      · exact Or.inr ⟨text, token :: front, back, rfl, last⟩

section
variable [LevelNames]

/-- What a passed token does to the value of a key that it is not for. -/
theorem value_of_applyToken (applied : settings.applyToken token = .ok after)
    (other : ∀ text, token ≠ key.token text) : after.value key = settings.value key := by
  rcases applyToken_eq_ok_iff.mp applied with ⟨_, rfl⟩ | ⟨key', text, value, rfl, _, sets⟩
  · rfl
  · refine sets.others key ?_
    rintro rfl
    exact other text rfl

theorem machine_of_applyToken (applied : settings.applyToken token = .ok after) :
    after.machine = settings.machine := by
  rcases applyToken_eq_ok_iff.mp applied with ⟨_, rfl⟩ | ⟨_, _, _, _, _, sets⟩
  · rfl
  · exact sets.machine

theorem read_of_applyToken (applied : settings.applyToken (key.token text) = .ok after) :
    key.read? text = some (after.value key) := by
  cases read : key.read? text with
  | none =>
      rw [settings.applyToken_of_unread read] at applied
      cases applied
  | some value =>
      rcases settings.exists_applyToken read with ⟨other, applied', sets⟩
      rw [Except.ok.inj (applied.symm.trans applied'), sets.here]

/-- One more token in front. -/
theorem LastWins.cons (applied : before.applyToken token = .ok middle)
    (wins : LastWins rest middle after) : LastWins (token :: rest) before after where
  assigned key text last := by
    rcases last with ⟨front, back, split, last⟩
    cases front with
    | nil =>
        rcases List.cons.inj split with ⟨rfl, rfl⟩
        rw [wins.kept key last]
        exact read_of_applyToken applied
    | cons first front => exact wins.assigned key text ⟨front, back, (List.cons.inj split).2, last⟩
  kept key absent := by
    have rest (text : List Char) : key.token text ∉ rest := fun listed =>
      absent text (List.mem_cons_of_mem _ listed)
    have here (text : List Char) : token ≠ key.token text := fun same =>
      absent text (same ▸ List.mem_cons_self)
    rw [wins.kept key rest, value_of_applyToken applied here]
  machine := wins.machine.trans (machine_of_applyToken applied)

theorem lastWins_of_applyTokens {tokens : List (List Char)}
    (passed : settings.applyTokens tokens = (after, .ok ())) : LastWins tokens settings after := by
  induction tokens generalizing settings with
  | nil =>
      rw [applyTokens, Prod.mk.injEq] at passed
      rw [← passed.1]
      refine ⟨?_, fun _ _ => rfl, rfl⟩
      rintro key text ⟨front, back, split, _⟩
      cases front <;> cases split
  | cons token rest later =>
      cases first : settings.applyToken token with
      | error error =>
          rw [applyTokens_of_error first] at passed
          cases passed
      | ok next =>
          rw [applyTokens_of_ok first] at passed
          exact (later passed).cons first

/-- Settings that the same tokens lead to are the same, where no token counts as well. -/
theorem LastWins.unique {tokens : List (List Char)} {other before' : Settings}
    (wins : LastWins tokens before after) (wins' : LastWins tokens before' other)
    (same : ∀ key, (∀ text, key.token text ∉ tokens) → before.value key = before'.value key)
    (machine : before.machine = before'.machine) : after = other := by
  refine ext_values (fun key => ?_) ?_
  · rcases exists_lastFor tokens key with absent | ⟨text, last⟩
    · rw [wins.kept key absent, wins'.kept key absent, same key absent]
    · have assigned := wins.assigned key text last
      exact Option.some.inj (assigned.symm.trans (wins'.assigned key text last))
  · rw [wins.machine, wins'.machine, machine]

/-- Tokens that were passed once change nothing the second time. -/
theorem applyTokens_again {tokens : List (List Char)}
    (passed : settings.applyTokens tokens = (after, .ok ())) :
    after.applyTokens tokens = (after, .ok ()) := by
  have wins := lastWins_of_applyTokens passed
  have again : ∃ other, after.applyTokens tokens = (other, .ok ()) :=
    applyTokens_eq_ok_iff.mpr (applyTokens_eq_ok_iff.mp ⟨after, passed⟩)
  rcases again with ⟨other, passed'⟩
  have wins' := lastWins_of_applyTokens passed'
  rw [passed', wins.unique wins' (fun key absent => (wins.kept key absent).symm)
    wins.machine.symm]

/-! ## Tokens left out or exchanged -/

theorem applyTokens_idle (idle : Idle token) (front back : List (List Char)) :
    settings.applyTokens (front ++ token :: back) = settings.applyTokens (front ++ back) := by
  rcases passed : settings.applyTokens front with ⟨middle, _ | _⟩
  · rw [applyTokens_append_error passed, applyTokens_append_error passed]
  · rw [applyTokens_append_ok passed, applyTokens_append_ok passed,
      applyTokens_of_ok (idle.applyToken middle)]

theorem applyTokens_swap {key' : Key} {text' : List Char} (different : key ≠ key')
    (valid : (key.read? text).isSome) (valid' : (key'.read? text').isSome)
    (front back : List (List Char)) :
    settings.applyTokens (front ++ key.token text :: key'.token text' :: back) =
      settings.applyTokens (front ++ key'.token text' :: key.token text :: back) := by
  rcases Option.isSome_iff_exists.mp valid with ⟨first, read⟩
  rcases Option.isSome_iff_exists.mp valid' with ⟨second, read'⟩
  rcases passed : settings.applyTokens front with ⟨start, _ | _⟩
  · rw [applyTokens_append_error passed, applyTokens_append_error passed]
  · rcases start.exists_applyToken read with ⟨middle, applied, sets⟩
    rcases middle.exists_applyToken read' with ⟨after, applied', then_sets⟩
    rcases start.exists_applyToken read' with ⟨middle', before, sets'⟩
    rcases middle'.exists_applyToken read with ⟨other, before', then_sets'⟩
    rw [applyTokens_append_ok passed, applyTokens_append_ok passed, applyTokens_of_ok applied,
      applyTokens_of_ok applied', applyTokens_of_ok before, applyTokens_of_ok before',
      sets.comm different then_sets sets' then_sets']

/-! ## Lines -/

/-- The laws of applying lines to settings. -/
structure LineLaws (settings : Settings) : Prop where
  /-- A line after another one, with a blank between them, is applied to what the first one
  comes to. -/
  joined_ok : ∀ line more middle, settings.applyLine line = (middle, .ok ()) →
    settings.applyLine (line ++ " " ++ more) = middle.applyLine more
  /-- Nothing is applied after a failure. -/
  joined_error : ∀ line more middle error, settings.applyLine line = (middle, .error error) →
    settings.applyLine (line ++ " " ++ more) = (middle, .error error)
  /-- A line fails only if it has an invalid token. -/
  succeeds : ∀ line, (∃ after, settings.applyLine line = (after, .ok ())) ↔
    ∀ token ∈ tokens line.toList, ¬Invalid token
  /-- After a success, each key is what the last token for it says. -/
  last_wins : ∀ line after, settings.applyLine line = (after, .ok ()) →
    LastWins (tokens line.toList) settings after
  /-- A line that was applied changes nothing when it is applied again. -/
  again : ∀ line after, settings.applyLine line = (after, .ok ()) →
    after.applyLine line = (after, .ok ())
  /-- Idle tokens can be put in or left out anywhere. -/
  idle : ∀ line line' front token back, tokens line.toList = front ++ back →
    tokens line'.toList = front ++ token :: back → Idle token →
      settings.applyLine line' = settings.applyLine line
  /-- Neighbouring valid tokens for different keys can be exchanged. -/
  exchange : ∀ (line line' : String) front (first second : Key) text text' back,
    first ≠ second → (first.read? text).isSome → (second.read? text').isSome →
    tokens line.toList = front ++ first.token text :: second.token text' :: back →
    tokens line'.toList = front ++ second.token text' :: first.token text :: back →
      settings.applyLine line' = settings.applyLine line
  /-- A failure names the first invalid token, and what is in front of it has been applied. -/
  stops : ∀ line after error, settings.applyLine line = (after, .error error) →
    ∃ front key text back, tokens line.toList = front ++ Key.token key text :: back ∧
      (∀ token ∈ front, ¬Invalid token) ∧ key.read? text = none ∧
      settings.applyTokens front = (after, .ok ()) ∧ error = ⟨key.name, String.ofList text⟩

/-- A line is a left fold of its tokens in which the last assignment to a key wins, whatever
names thresholds go by. -/
theorem lines_fold (settings : Settings) : LineLaws settings where
  joined_ok line more middle passed := by
    rw [applyLine, tokens_join, applyTokens_append_ok passed]
    rfl
  joined_error line more middle error refused := by
    rw [applyLine, tokens_join, applyTokens_append_error refused]
  succeeds line := applyTokens_eq_ok_iff
  last_wins line after passed := lastWins_of_applyTokens passed
  again line after passed := applyTokens_again passed
  idle line line' front token back without within idle := by
    rw [applyLine, applyLine, without, within, applyTokens_idle idle]
  exchange line line' front first second text text' back different valid valid' one other := by
    rw [applyLine, applyLine, one, other, applyTokens_swap different valid valid']
  stops line after error refused := applyTokens_eq_error refused

end

/-- The last size counts, and the base in front of the bad value has been set. -/
example : ({} : Settings).applyLine
    "quiet kmod.text_size=1G kmod.data_base=0x1000 kmod.text_size=4K loglevel=loud a=b" =
    ({ text := ⟨0xFFFFFFFFA0000000, 4096⟩, data := ⟨0x1000, 128 <<< 20⟩ },
      .error ⟨"loglevel", "loud"⟩) := by
  decide

end Settings
end ModuleHost
