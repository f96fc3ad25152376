import EntityMarkup.Json.Decode
import EntityMarkup.Proofs.Entity.FirstCrossing
import EntityMarkup.Proofs.Guarded.Run
import EntityMarkup.Proofs.Pipeline.Agreement
import EntityMarkup.Proofs.Pipeline.Counts
import EntityMarkup.Proofs.Pipeline.Failure
import EntityMarkup.Proofs.Pipeline.Limits
import EntityMarkup.Proofs.Pipeline.Locality
import EntityMarkup.Proofs.Pipeline.Policies
import EntityMarkup.Proofs.Pipeline.Relisted
import EntityMarkup.Proofs.Recognizer.Criteria
import EntityMarkup.Proofs.Recognizer.Findable
import EntityMarkup.Proofs.Recognizer.Reordering
import EntityMarkup.Proofs.Render.AnyTokens
import EntityMarkup.Proofs.Render.Escaping
import EntityMarkup.Proofs.Render.Rearranged
import EntityMarkup.Proofs.Render.Tagging
import EntityMarkup.Proofs.Service.Advertised
import EntityMarkup.Proofs.Service.Answers
import EntityMarkup.Proofs.Text.Escaped
import EntityMarkup.Proofs.Token.Layout
import EntityMarkup.Proofs.Token.Splitting
import EntityMarkup.Recognizer.Replay
import EntityMarkup.Service
