import JuliaLexer.Main
import JuliaLexer.Session
import JuliaLexer.Token.Flat
import JuliaLexer.Trace
import JuliaLexer.Proofs.Concatenation
import JuliaLexer.Proofs.Prefix
import JuliaLexer.Proofs.WholeText
import JuliaLexer.Proofs.Output
import JuliaLexer.Proofs.ProgramDocument
import JuliaLexer.Proofs.Streaming
import JuliaLexer.Proofs.Likeness
import JuliaLexer.Proofs.Tiling
import JuliaLexer.Proofs.SessionRun
import JuliaLexer.Proofs.Account
import JuliaLexer.Proofs.ReservedWords
import JuliaLexer.Proofs.Precedence
import JuliaLexer.Proofs.Mirror
import JuliaLexer.Proofs.ErrorMessage
import JuliaLexer.Proofs.FlatForm
