import WorkflowEngine.Proofs.Document.Value
import WorkflowEngine.Workflow.File

/-!
# Workflows by way of values

A workflow that is loaded from JSON text is also the one that is decoded from the value of that
text, if it has one (`Workflow.decode?_of_ofText`). Loading alone refuses a record in which a field
stands twice, and the text alone may have no value, for a number in a field that nobody asks for.
-/

namespace WorkflowEngine

open Document
open Json (Value)

theorem Branch.goesByValue_decode : GoesByValue Branch.decode? := by
  intro levels levels' d v b h hdepth hb
  rw [Branch.decode?] at hb
  split at hb
  · rename_i l expression target hparts
    obtain ⟨l', _, hparts', _ | ⟨hexpression, _ | ⟨htarget, _ | _⟩⟩⟩ :=
      parts?_of_hasValue h hdepth hparts
    obtain _ | ⟨hexpression, hdepth⟩ := hexpression
    obtain _ | ⟨htarget, hdepth'⟩ := htarget
    split at hb
    · rename_i he ht
      cases hb
      have he' := goesByValue_text l hexpression hdepth he
      have ht' := goesByValue_text l htarget hdepth' ht
      dsimp only at he' ht'
      rw [Branch.decode?, hparts']
      dsimp only
      rw [he', ht']
    · cases hb
  · cases hb

theorem RetryPolicy.goesByValue_decode : GoesByValue RetryPolicy.decode? := by
  intro levels levels' d v r h hdepth hr
  rw [RetryPolicy.decode?] at hr
  split at hr
  · rename_i l maxRetries delay hparts
    obtain ⟨l', _, hparts', _ | ⟨hmaxRetries, _ | ⟨hdelay, _ | _⟩⟩⟩ :=
      parts?_of_hasValue h hdepth hparts
    split at hr
    · rename_i hm hms
      cases hr
      have hm' := hmaxRetries.part? l (goesByValue_int _ _) hm
      have hms' := hdelay.part? l (goesByValue_int _ _).optional hms
      rw [RetryPolicy.decode?, hparts']
      dsimp only
      rw [hm', hms']
    · cases hr
  · cases hr

theorem RetryPolicy.goesByValue_decodeHandling : GoesByValue RetryPolicy.decodeHandling? := by
  intro levels levels' d v r h hdepth hr
  rw [RetryPolicy.decodeHandling?] at hr
  split at hr
  · rename_i l policy hparts
    obtain ⟨l', _, hparts', _ | ⟨hpolicy, _ | _⟩⟩ := parts?_of_hasValue h hdepth hparts
    have hr' := hpolicy.part? l RetryPolicy.goesByValue_decode hr
    rw [RetryPolicy.decodeHandling?, hparts']
    exact hr'
  · cases hr

theorem Configuration.goesByValue_decode : GoesByValue Configuration.decode? := by
  intro levels levels' d v c h hdepth hc
  rw [Configuration.decode?] at hc
  split at hc
  · rename_i l parallelism timeout hparts
    obtain ⟨l', _, hparts', _ | ⟨hparallelism, _ | ⟨htimeout, _ | _⟩⟩⟩ :=
      parts?_of_hasValue h hdepth hparts
    split at hc
    · rename_i hp hms
      cases hc
      have hp' := hparallelism.part? l goesByValue_nat.optional hp
      have hms' := htimeout.part? l goesByValue_nat.optional hms
      rw [Configuration.decode?, hparts']
      dsimp only
      rw [hp', hms']
    · cases hc
  · cases hc

theorem Task.goesByValue_decode : GoesByValue Task.decode? := by
  intro levels levels' d v t h hdepth ht
  rw [Task.decode?] at ht
  split at ht
  · rename_i l name description dependencies branches timeout parameters retry hparts
    obtain ⟨l', _, hparts', _ | ⟨hname, _ | ⟨hdescription, _ | ⟨hdependencies, _ | ⟨hbranches,
      _ | ⟨htimeout, _ | ⟨hparameters, _ | ⟨hretry, _ | _⟩⟩⟩⟩⟩⟩⟩⟩ :=
      parts?_of_hasValue h hdepth hparts
    obtain _ | ⟨hname, hdepth⟩ := hname
    split at ht
    · rename_i hn hd hds hbs hms hps hr
      cases ht
      have hn' := goesByValue_text l hname hdepth hn
      have hd' := hdescription.part? l goesByValue_text.optional hd
      have hds' := hdependencies.part? l goesByValue_text.list hds
      have hbs' := hbranches.part? l Branch.goesByValue_decode.list hbs
      have hms' := htimeout.part? l goesByValue_nat.optional hms
      have hps' := hparameters.part? l goesByValue_freeForm hps
      have hr' := hretry.part? l RetryPolicy.goesByValue_decodeHandling hr
      dsimp only at hn'
      rw [Task.decode?, hparts']
      dsimp only
      rw [hn', hd', hds', hbs', hms', hps', hr']
    · cases ht
  · cases ht

theorem Workflow.goesByValue_decode : GoesByValue Workflow.decode? := by
  intro levels levels' d v w h hdepth hw
  rw [Workflow.decode?] at hw
  split at hw
  · rename_i l name description _ configuration tasks hparts
    obtain ⟨l', _, hparts', _ | ⟨hname, _ | ⟨hdescription, _ | ⟨hvariables, _ | ⟨hconfiguration,
      _ | ⟨htasks, _ | _⟩⟩⟩⟩⟩⟩ := parts?_of_hasValue h hdepth hparts
    split at hw
    · rename_i hn hd hvs hc hts
      cases hw
      have hn' := hname.part? l goesByValue_text hn
      have hd' := hdescription.part? l goesByValue_text hd
      have hvs' := hvariables.part? l goesByValue_freeForm hvs
      have hc' := hconfiguration.part? l Configuration.goesByValue_decode hc
      have hts' := htasks.part? l Task.goesByValue_decode.list hts
      rw [Workflow.decode?, hparts']
      dsimp only
      rw [hn', hd', hvs', hc', hts']
    · cases hw
  · cases hw

/-- What is loaded from a text is what is decoded from its value. -/
theorem Workflow.decode?_of_ofText {text : String} {w : Workflow} {v : Value} {n levels : Nat}
    (hw : Workflow.ofText .json text = .ok w)
    (hv : (Json.readText text).bind (Document.value? n) = some v) (hlevels : n ≤ levels) :
    Workflow.decode? levels (ofValue v) = some w := by
  obtain ⟨d, hread, hvalue⟩ := Option.bind_eq_some_iff.mp hv
  rw [Workflow.ofText, Format.read, hread, Option.bind_some] at hw
  split at hw
  · rename_i w' hdecode
    cases hw
    obtain ⟨hd, hdepth⟩ := hasValue_of_value? (Json.tagged_readText hread) hvalue
    exact Workflow.goesByValue_decode _ hd (Nat.le_trans hdepth hlevels) hdecode
  · cases hw

/-- Of two names the value keeps the last one, and the text is not loaded. -/
example :
    let text := "\x7b\"name\": \"a\", \"name\": \"b\"\x7d"
    (Workflow.ofText .json text).toOption.isNone ∧
      (((Json.readText text).bind (Document.value? 127)).bind fun v =>
        Workflow.decode? 128 (ofValue v)).map (·.name) = some "b" := by
  decide +kernel

end WorkflowEngine
