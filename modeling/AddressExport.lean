import AddressExport.Address.Sample
import AddressExport.Command.Line
import AddressExport.Declaration.Exported
import AddressExport.Main
import AddressExport.Module.Accessors
import AddressExport.Module.Wrapper
import AddressExport.Name.Table
import AddressExport.Path
import AddressExport.Proofs.Dump.RoundTrip
import AddressExport.Proofs.Name.Assignment
import AddressExport.Settings.Find
import AddressExport.System.Files
import AddressExport.System.Machine
import AddressExport.System.Programs
import AddressExport.Text.Utf8
import AddressExport.Toml.Document
import AddressExport.Proofs.Declaration.Cleanup
import AddressExport.Proofs.Declaration.Exported
import AddressExport.Proofs.Declaration.Discovery
import AddressExport.Proofs.Module.Accessors
import AddressExport.Proofs.Address.Table
import AddressExport.Proofs.Name.Redefinition
import AddressExport.Proofs.Module.Agreement
import AddressExport.Proofs.Address.Declared
import AddressExport.Proofs.Command.Generate
import AddressExport.Proofs.Declaration.Filtering
import AddressExport.Proofs.Declaration.Search
import AddressExport.Proofs.Declaration.Allocation
import AddressExport.Proofs.Declaration.Idempotence
import AddressExport.Proofs.Command.Strictness
import AddressExport.Proofs.Signature.Splitting
import AddressExport.Proofs.Signature.Joining
import AddressExport.Proofs.Text.Words
import AddressExport.Proofs.Signature.Foreign
import AddressExport.Proofs.Signature.Pointer
import AddressExport.Proofs.Signature.Trailing
import AddressExport.Proofs.Dump.Indentation
import AddressExport.Proofs.Name.Separation
import AddressExport.Proofs.Tree.Restrict
import AddressExport.Proofs.Declaration.Listing
import AddressExport.Proofs.Path
import AddressExport.Proofs.Settings.Find
import AddressExport.Proofs.Name.Respelling
