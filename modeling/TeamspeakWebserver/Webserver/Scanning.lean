import TeamspeakWebserver.Text.Bytes
import TeamspeakWebserver.Text.Scanner

/-! The lines of the ServerQuery connection (`cmd/tsc/tsconn.go`, `cmd/tsc/smsg.go`). -/

namespace TeamspeakWebserver.Webserver

open Text

/-- The second argument of `scanner.Buffer` in `initServerConnection`. -/
def maxTokenSize : ℕ := 10 * 2 ^ 20

def scanLines : SplitFunc UInt8 := fun data atEOF =>
  if atEOF && data.length = 0 then ⟨0, none, false⟩
  else match find (ascii "\n\r") data with
    | some i => ⟨i + 2, some (data.take i), false⟩
    | none => if atEOF then ⟨data.length, some data, false⟩ else ⟨0, none, false⟩

lemma delimiter : ascii "\n\r" = 10 :: [13] := by decide

lemma scanLines_eq : scanLines = cutAt (10 :: [13]) := by
  funext data atEOF
  have hempty : decide (data.length = 0) = data.isEmpty := by
    cases data <;> rfl
  rw [scanLines, cutAt, delimiter, hempty]
  rfl

theorem tokens_of_stream {stream : Bytes} (h : Fits (ascii "\n\r") maxTokenSize stream) (reads : List Bytes)
    (last : Bytes) (hstream : reads.flatten ++ last = stream) : ∃ n, ∀ k,
      (Scanner.new reads last).tokens scanLines maxTokenSize (n + k) = some (records (ascii "\n\r") stream) := by
  subst hstream
  rw [delimiter] at h ⊢
  obtain ⟨n, hn⟩ := tokens_cutAt (by decide) [] h
  exact ⟨n, Scanner.tokens_mono (by rw [scanLines_eq]; exact hn)⟩

theorem tokens_of_greeting : ∃ n, ∀ k,
    (Scanner.new [ascii "TS3\n", ascii "\rWelcome"] []).tokens scanLines maxTokenSize (n + k) =
      some [ascii "TS3", ascii "Welcome"] := by
  have hfits : Fits (ascii "\n\r") maxTokenSize (ascii "TS3\n\rWelcome") := by
    rw [delimiter, show ascii "TS3\n\rWelcome" = ascii "TS3" ++ (10 :: [13] ++ ascii "Welcome") by decide,
      fits_first (by decide) (by decide), fits_of_absent (by decide)]
    exact ⟨by decide, by decide⟩
  have htokens := tokens_of_stream hfits [ascii "TS3\n", ascii "\rWelcome"] [] (by decide)
  rwa [show records (ascii "\n\r") (ascii "TS3\n\rWelcome") = [ascii "TS3", ascii "Welcome"] by decide] at htokens

end TeamspeakWebserver.Webserver
